import Bsg.Central.RoundSteps

/-!
# The duration of every round is in range

The duration of a round should lie between `minRoundDuration` and `maxRoundDuration`, so that the
interval until its end is positive and fits into 64 bits of nanoseconds (`Timed`). The range is
checked where the duration is edited, but not where a round is created. `allTimed_of_along` says
that the checks suffice as long as every created round has a duration in range.
-/

namespace Bsg.Central

open Bsg.Foundations

/-- The duration is in the allowed range, and the interval to the end of the round is the positive
one that it should be. -/
structure Timed (round : Round) : Prop where
  min : minRoundDuration ≤ round.duration
  max : round.duration ≤ maxRoundDuration
  interval : endInterval round = 60 * 10^9 * round.duration + roundDurationBuffer * 10^9
  pos : 0 < endInterval round

/-- A duration in range makes a good interval. -/
theorem timed_of_range {round : Round} (hmin : minRoundDuration ≤ round.duration)
    (hmax : round.duration ≤ maxRoundDuration) : Timed round := by
  have hmin' : 5 ≤ round.duration := hmin
  have hmax' : round.duration ≤ 120 := hmax
  have hinterval : endInterval round = 60 * 10^9 * round.duration + roundDurationBuffer * 10^9 := by
    have hminutes : int64 (60 * 10^9 * round.duration) = 60 * 10^9 * round.duration :=
      int64_of_fits (by omega) (by omega)
    unfold endInterval roundDurationBuffer
    rw [hminutes, int64_of_fits (by omega) (by omega)]
  refine ⟨hmin, hmax, hinterval, ?_⟩
  rw [hinterval]
  unfold roundDurationBuffer
  omega

/-- All rounds have a duration in range. -/
def AllTimed (w : World) : Prop := ∀ round ∈ w.db.rounds.rows, Timed round

/-- A round that is created has a duration in range. -/
def CreatesInRange (w : World) (e : Env × RoomEvent) : Prop :=
  match e.2 with
  | .createRound maxNumRoundsPerRoom params roomID =>
    Admitted e.1 maxNumRoundsPerRoom roomID w.db →
      minRoundDuration ≤ params.duration ∧ params.duration ≤ maxRoundDuration
  | _ => True

/-- The event creates a round, edits its duration or starts it. -/
def RoomEvent.isTiming : RoomEvent → Bool
  | .createRound _ _ _ | .setRoundDuration _ _ _ | .startRound _ _ => true
  | _ => false

section Step

variable {w w' : World}

/-- Deleting rounds leaves the others timed. -/
theorem AllTimed.of_sublist (h : AllTimed w) (hsub : w'.db.rounds.rows.Sublist w.db.rounds.rows) :
    AllTimed w' := fun round hround => h round (hsub.mem hround)

/-- A rewritten round has a duration in range when the new duration is. -/
theorem AllTimed.modify {f : Round → Round} (hf : ∀ r, Row.id (f r) = Row.id r) {roundID : ℕ}
    (h : AllTimed w) (htimed : ∀ r, Timed r → Timed (f r))
    (hrounds : w'.db.rounds = w.db.rounds.modify roundID f hf) : AllTimed w' := by
  intro round hround
  rw [hrounds, Table.rows_modify] at hround
  obtain ⟨r, hr, rfl⟩ := List.mem_map.mp hround
  split
  · exact htimed r (h r hr)
  · exact h r hr

/-- A new round whose duration is in the range is timed. -/
theorem AllTimed.inserts {env : Env} {duration : ℤ} {roomID : RoomID} (h : AllTimed w)
    (hmin : minRoundDuration ≤ duration) (hmax : duration ≤ maxRoundDuration)
    (hinserts : Inserts env duration roomID w w') : AllTimed w' := by
  intro round hround
  rw [hinserts.rounds] at hround
  rcases List.mem_append.mp hround with hround | hround
  · exact h round hround
  · rw [List.mem_singleton.mp hround]
    exact timed_of_range hmin hmax

/-- A request keeps all durations in range, unless it creates a round with another one. -/
theorem allTimed_serve (e : Env × RoomEvent) (hkind : e.2.isTiming = true) (h : AllTimed w)
    (hin : CreatesInRange w e) : AllTimed (w.serve e) := by
  obtain ⟨env, event⟩ := e
  cases event with
  | createRound maxNumRoundsPerRoom params roomID =>
    show AllTimed ((createRound env maxNumRoundsPerRoom params roomID).run w).2
    -- A creation that is refused stores nothing.
    rcases createRound_cases env maxNumRoundsPerRoom params roomID w with
      ⟨-, e, w', hrun, rfl | ⟨-, hshrinks⟩⟩ | ⟨hadmitted, room, -, w₁, hinserts, hend⟩
    · rw [hrun]
      exact h
    · rw [hrun]
      exact h.of_sublist hshrinks.rounds
    · -- The new row is in range; what follows only deletes rows.
      obtain ⟨hmin, hmax⟩ := hin hadmitted
      have hnew : AllTimed w₁ := h.inserts hmin hmax hinserts
      rcases hend with ⟨-, r, hrun⟩ | ⟨-, e, w₂, hrun, rfl | ⟨-, hshrinks⟩⟩
      · rwa [hrun]
      · rwa [hrun]
      · rw [hrun]
        exact hnew.of_sublist hshrinks.rounds
  | setRoundDuration roomID userID duration =>
    show AllTimed ((setRoundDurationByRoomID env roomID userID duration).run w).2
    rcases setRoundDurationByRoomID_cases env roomID userID duration w with
      hsame | ⟨round, -, hmin, hmax, hrun⟩
    · rwa [hsame]
    · rw [hrun]
      exact h.modify (Round.id_setDuration duration) (fun _ _ => timed_of_range hmin hmax) rfl
  | startRound roomID userID =>
    show AllTimed ((startRoundByRoomID env roomID userID).run w).2
    rcases startRoundByRoomID_cases env roomID userID w with ⟨o, hrun, -⟩ |
      ⟨round, -, -, -, o, w', hrun, hstarts⟩
    · rwa [hrun]
    · rw [hrun]
      exact h.modify (Round.id_start env.now) (fun _ ht => timed_of_range ht.min ht.max)
        hstarts.rounds
  | _ => cases hkind

end Step

/-- Along every run of requests to create, to edit and to start rounds in which every round is
created with a duration in range, all durations stay in range. -/
theorem allTimed_of_along (w : World) (es : List (Env × RoomEvent)) (h : AllTimed w)
    (hkind : ∀ e ∈ es, e.2.isTiming = true) (hin : Along World.serve CreatesInRange w es) :
    Throughout World.serve AllTimed w es := by
  have hall : Along World.serve (fun w e => e.2.isTiming = true ∧ CreatesInRange w e) w es :=
    (Along.of_mem hkind).and hin
  exact invariant_along (fun _ e h hok => allTimed_serve e hok.1 h hok.2) h hall

/-- A round of half an hour is created, shortened and started. -/
def shortenAndStart : List (Env × RoomEvent) :=
  [(Env.faultless 10, .createRound 3 (handPicked [1]) roomOne),
    (Env.faultless 20, .setRoundDuration roomOne host 15),
    (Env.faultless 30, .startRound roomOne host)]

/-- The round of the room is timed. -/
theorem allTimed_ready : AllTimed .ready := by
  have hrows : World.ready.db.rounds.rows = [roundOne] := by decide +kernel
  intro round hround
  rw [hrows, List.mem_singleton] at hround
  rw [hround]
  exact timed_of_range (by decide) (by decide)

/-- The round is shortened before it starts. -/
theorem allTimed_shortenAndStart : Throughout World.serve AllTimed .ready shortenAndStart :=
  allTimed_of_along .ready shortenAndStart allTimed_ready (by decide)
    ⟨fun _ => ⟨by decide, by decide⟩, trivial, trivial, trivial⟩

/-- A request for a round that lasts no time at all. -/
def createForNothing : List (Env × RoomEvent) :=
  [(Env.faultless 10, .createRound 3 { handPicked [1] with duration := 0 } roomOne)]

/-- A round that lasts no time is created like any other. -/
theorem not_allTimed :
    (AllTimed .ready ∧ ∀ e ∈ createForNothing, e.2.isTiming = true) ∧
      ¬ Throughout World.serve AllTimed .ready createForNothing := by
  refine ⟨⟨allTimed_ready, by decide⟩, fun h => ?_⟩
  let last := run World.serve World.ready createForNothing
  have hround : ⟨2, 10, 0, roomOne, .created⟩ ∈ last.db.rounds.rows := by decide +kernel
  have hmin : (5 : ℤ) ≤ 0 := (h.last _ hround).min
  omega

end Bsg.Central
