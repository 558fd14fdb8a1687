import Bsg.Central.Lifecycle
import Bsg.Central.SizedRounds

/-!
# References between the tables of a room

The tables of central-service refer to each other by keys: a round to its room, an entry of a
problem set to its round and its problem, a participant to his round, and a round submission to its
participant and to the round of both. The code deletes rooms by hand, table after table, and any of
these steps may fail and leave the rest undone. The order in which it does so is what keeps the
references intact (`referential_deleteRoom`), so they are intact in every state that the service
reaches, whatever fails (`referential_along`).
-/

namespace Bsg.Central

open Bsg.Foundations

/-- The keys that rounds, problem sets, participants and round submissions refer to are keys of
rows. The owners of `submissions` are not among them: they stay when the submissions of a round are
deleted. -/
structure Referential (db : DB) : Prop where
  rounds : ∀ r ∈ db.rounds.rows, ∃ room ∈ db.rooms, room.id = r.roomID
  problemSets : ∀ rp ∈ db.roundProblems,
    (∃ r ∈ db.rounds.rows, r.id = rp.1) ∧ ∃ p ∈ db.problems.rows, p.id = rp.2
  participants : ∀ p ∈ db.participants.rows, ∃ r ∈ db.rounds.rows, r.id = p.roundID
  roundSubmissions : ∀ rs ∈ db.roundSubmissions.rows,
    ∃ p ∈ db.participants.rows, p.id = rs.roundParticipantID ∧ p.roundID = rs.roundID

/-- The keys of all rows, and what they refer to. -/
structure Ledger where
  rooms : List RoomID
  problems : List ℕ
  rounds : List (ℕ × RoomID)
  roundProblems : List (ℕ × ℕ)
  participants : List (ℕ × ℕ)
  roundSubmissions : List (ℕ × ℕ)

/-- The ledger of a state. -/
def World.ledger (w : World) : Ledger where
  rooms := w.db.rooms.map Room.id
  problems := w.db.problems.rows.map Problem.id
  rounds := w.db.rounds.rows.map fun r => (r.id, r.roomID)
  roundProblems := w.db.roundProblems
  participants := w.db.participants.rows.map fun p => (p.id, p.roundID)
  roundSubmissions := w.db.roundSubmissions.rows.map fun rs => (rs.roundID, rs.roundParticipantID)

section Ledger

variable {w w' : World}

/-- The ledger has the ids of the rooms. -/
theorem exists_room_iff {roomID : RoomID} :
    (∃ room ∈ w.db.rooms, room.id = roomID) ↔ roomID ∈ w.ledger.rooms := List.mem_map.symm

/-- The ledger has the keys of the problems. -/
theorem exists_problem_iff {problemID : ℕ} :
    (∃ p ∈ w.db.problems.rows, p.id = problemID) ↔ problemID ∈ w.ledger.problems :=
  List.mem_map.symm

/-- The ledger has the keys of the rounds with their rooms. -/
theorem exists_round_iff {roundID : ℕ} :
    (∃ r ∈ w.db.rounds.rows, r.id = roundID) ↔ ∃ roomID, (roundID, roomID) ∈ w.ledger.rounds := by
  constructor
  · rintro ⟨r, hr, rfl⟩
    exact ⟨r.roomID, List.mem_map.mpr ⟨r, hr, rfl⟩⟩
  · rintro ⟨roomID, h⟩
    obtain ⟨r, hr, heq⟩ := List.mem_map.mp h
    exact ⟨r, hr, congrArg Prod.fst heq⟩

/-- The ledger has the keys of the participants with their rounds. -/
theorem exists_participant_iff {id roundID : ℕ} :
    (∃ p ∈ w.db.participants.rows, p.id = id ∧ p.roundID = roundID) ↔
      (id, roundID) ∈ w.ledger.participants := by
  constructor
  · rintro ⟨p, hp, rfl, rfl⟩
    exact List.mem_map.mpr ⟨p, hp, rfl⟩
  · intro h
    obtain ⟨p, hp, heq⟩ := List.mem_map.mp h
    exact ⟨p, hp, congrArg Prod.fst heq, congrArg Prod.snd heq⟩

/-- Whether the references are intact can be read off the ledger. -/
theorem Referential.of_ledger (hledger : w'.ledger = w.ledger) (h : Referential w.db) :
    Referential w'.db where
  rounds r hr := by
    -- Each clause is one about the ledger: the row that refers, and the key that it refers to.
    rw [exists_room_iff, hledger]
    have hmem : (r.id, r.roomID) ∈ w'.ledger.rounds := List.mem_map.mpr ⟨r, hr, rfl⟩
    rw [hledger] at hmem
    obtain ⟨r₀, hr₀, heq⟩ := List.mem_map.mp hmem
    rw [← show r₀.roomID = r.roomID from congrArg Prod.snd heq]
    exact exists_room_iff.mp (h.rounds r₀ hr₀)
  problemSets rp hrp := by
    have hmem : rp ∈ w'.ledger.roundProblems := hrp
    rw [hledger] at hmem
    rw [exists_round_iff, exists_problem_iff, hledger, ← exists_round_iff, ← exists_problem_iff]
    exact h.problemSets rp hmem
  participants p hp := by
    have hmem : (p.id, p.roundID) ∈ w'.ledger.participants := List.mem_map.mpr ⟨p, hp, rfl⟩
    rw [hledger] at hmem
    obtain ⟨p₀, hp₀, heq⟩ := List.mem_map.mp hmem
    rw [exists_round_iff, hledger, ← exists_round_iff,
      ← show p₀.roundID = p.roundID from congrArg Prod.snd heq]
    exact h.participants p₀ hp₀
  roundSubmissions rs hrs := by
    have hmem : (rs.roundID, rs.roundParticipantID) ∈ w'.ledger.roundSubmissions :=
      List.mem_map.mpr ⟨rs, hrs, rfl⟩
    rw [hledger] at hmem
    obtain ⟨rs₀, hrs₀, heq⟩ := List.mem_map.mp hmem
    rw [exists_participant_iff, hledger, ← exists_participant_iff,
      ← show rs₀.roundID = rs.roundID from congrArg Prod.fst heq,
      ← show rs₀.roundParticipantID = rs.roundParticipantID from congrArg Prod.snd heq]
    exact h.roundSubmissions rs₀ hrs₀

/-- A round that is rewritten keeps its place in the ledger. -/
theorem ledger_modify {f : Round → Round} (hf : ∀ r, Row.id (f r) = Row.id r)
    (hroom : ∀ r, (f r).roomID = r.roomID) (roundID : ℕ) (w : World) :
    World.ledger { w with db := { w.db with rounds := w.db.rounds.modify roundID f hf } } =
      w.ledger := by
  unfold World.ledger
  congr 1
  show (w.db.rounds.modify roundID f hf).rows.map _ = w.db.rounds.rows.map _
  rw [Table.rows_modify, List.map_map]
  refine List.map_congr_left fun r _ => ?_
  rw [Function.comp_apply]
  split
  · exact Prod.ext (hf r) (hroom r)
  · rfl

/-- A call that leaves the ledger leaves the references intact. -/
theorem Referential.of_keeps {α : Type} {x : Service α} (hx : Call.Keeps World.ledger x)
    (h : Referential w.db) : Referential (x.run w).2.db := h.of_ledger (hx w)

end Ledger

/-! ## New rows -/

section Insert

variable {db : DB}

/-- A new room breaks no reference. -/
theorem Referential.addRoom (h : Referential db) (room : Room) :
    Referential { db with rooms := db.rooms ++ [room] } where
  rounds r hr := by
    obtain ⟨room', hroom, hid⟩ := h.rounds r hr
    exact ⟨room', List.mem_append_left _ hroom, hid⟩
  problemSets := h.problemSets
  participants := h.participants
  roundSubmissions := h.roundSubmissions

/-- A new round of a room. -/
theorem Referential.addRound (h : Referential db) (env : Env) (duration : ℤ) {roomID : RoomID}
    (hroom : ∃ room ∈ db.rooms, room.id = roomID) :
    Referential (db.addRound env duration roomID) where
  rounds r hr := by
    rcases List.mem_append.mp hr with hr | hr
    · exact h.rounds r hr
    · rw [List.mem_singleton.mp hr]
      exact hroom
  problemSets rp hrp := by
    obtain ⟨⟨r, hr, hid⟩, hproblem⟩ := h.problemSets rp hrp
    exact ⟨⟨r, List.mem_append_left _ hr, hid⟩, hproblem⟩
  participants p hp := by
    obtain ⟨r, hr, hid⟩ := h.participants p hp
    exact ⟨r, List.mem_append_left _ hr, hid⟩
  roundSubmissions := h.roundSubmissions

/-- Problems for a round. -/
theorem Referential.appendProblems (h : Referential db) {roundID : ℕ} {problemSet : List Problem}
    (hround : ∃ r ∈ db.rounds.rows, r.id = roundID)
    (hproblems : ∀ p ∈ problemSet, p ∈ db.problems.rows) :
    Referential (db.appendProblems roundID problemSet) where
  rounds := h.rounds
  problemSets rp hrp := by
    rcases List.mem_append.mp hrp with hold | hnew
    · exact h.problemSets rp hold
    · obtain ⟨p, hp, rfl⟩ := List.mem_map.mp (List.mem_filter.mp hnew).1
      exact ⟨hround, p, hproblems p hp, rfl⟩
  participants := h.participants
  roundSubmissions := h.roundSubmissions

/-- A participant of a round. -/
theorem Referential.addParticipant (h : Referential db) (hint : ℕ) (userID : AuthID) {roundID : ℕ}
    (hround : ∃ r ∈ db.rounds.rows, r.id = roundID) :
    Referential (db.addParticipant hint userID roundID) where
  rounds := h.rounds
  problemSets := h.problemSets
  participants p hp := by
    rcases List.mem_append.mp hp with hp | hp
    · exact h.participants p hp
    · rw [List.mem_singleton.mp hp]
      exact hround
  roundSubmissions rs hrs := by
    obtain ⟨p, hp, hids⟩ := h.roundSubmissions rs hrs
    exact ⟨p, List.mem_append_left _ hp, hids⟩

/-- A submission of a participant of its round. -/
theorem Referential.addSubmission (h : Referential db) (env : Env)
    (params : RoundSubmissionParameters) {ctx : SubmissionContext}
    (hparticipant : ctx.participant ∈ db.participants.rows)
    (hround : ctx.participant.roundID = ctx.round.id) :
    Referential (db.addSubmission env params ctx) where
  rounds := h.rounds
  problemSets := h.problemSets
  participants := h.participants
  roundSubmissions rs hrs := by
    rcases List.mem_append.mp hrs with hrs | hrs
    · exact h.roundSubmissions rs hrs
    · rw [List.mem_singleton.mp hrs]
      exact ⟨ctx.participant, hparticipant, rfl, hround⟩

end Insert

/-! ## Deleted rows -/

/-- The database without the submissions of a round. -/
def DB.dropSubmissions (db : DB) (roundID : ℕ) : DB :=
  { db with roundSubmissions := db.roundSubmissions.delete fun s => s.roundID = roundID }

/-- The database without the participants of a round. -/
def DB.dropParticipants (db : DB) (roundID : ℕ) : DB :=
  { db with participants := db.participants.delete fun p => p.roundID = roundID }

/-- The database without the problem set of a round. -/
def DB.dropProblems (db : DB) (roundID : ℕ) : DB :=
  { db with roundProblems := db.roundProblems.filter fun rp => rp.1 ≠ roundID }

/-- The database without the row of a round. -/
def DB.dropRound (db : DB) (roundID : ℕ) : DB :=
  { db with rounds := db.rounds.delete fun r => r.id = roundID }

/-- The stages in which a round is deleted, the last but one first: what refers to something goes
before what it refers to. -/
def DB.stages (db : DB) (roundID : ℕ) : List DB :=
  [((db.dropSubmissions roundID).dropParticipants roundID).dropProblems roundID,
    (db.dropSubmissions roundID).dropParticipants roundID, db.dropSubmissions roundID, db]

/-- The database without a round and all that belongs to it. -/
def DB.withoutRound (db : DB) (roundID : ℕ) : DB :=
  (((db.dropSubmissions roundID).dropParticipants roundID).dropProblems roundID).dropRound roundID

/-- The state with another database. -/
def World.withDB (w : World) (db : DB) : World := { w with db := db }

/-- A round is deleted with all that belongs to it, or the deletion fails at one of its stages. -/
theorem deleteRound_cases (env : Env) (round : Round × ℕ) (w : World) :
    (∃ e w', (deleteRound env round).run w = (.err e, w') ∧ w'.db ∈ w.db.stages round.1.id) ∨
    ∃ w', (deleteRound env round).run w = (.ok (), w') ∧
      w'.db = w.db.withoutRound round.1.id := by
  -- The leaderboard goes first, in Redis; whether that works is only logged.
  obtain ⟨w₀, hlogged, hdb⟩ : ∃ w₀, (logged (deleteLeaderboard env round.2 round.1.id)).run w =
      (.ok (), w₀) ∧ w₀.db = w.db := by
    unfold deleteLeaderboard
    cases env.fails (.delLeaderboard round.2) with
    | true => exact ⟨w, rfl, rfl⟩
    | false => exact ⟨_, rfl, rfl⟩
  unfold deleteRound
  rw [Call.bind_ok hlogged, ← hdb]
  -- The database after each of the statements.
  let db₁ := w₀.db.dropSubmissions round.1.id
  let db₂ := db₁.dropParticipants round.1.id
  let db₃ := db₂.dropProblems round.1.id
  have hstages : w₀.db.stages round.1.id = [db₃, db₂, db₁, w₀.db] := rfl
  rw [hstages]
  cases env.fails (.deleteRoundSubmissions round.2) with
  | true => exact Or.inl ⟨_, w₀, rfl, by simp⟩
  | false =>
  cases env.fails (.deleteParticipants round.2) with
  | true => exact Or.inl ⟨_, w₀.withDB db₁, rfl, by simp [World.withDB]⟩
  | false =>
  cases env.fails (.deleteRoundProblems round.2) with
  | true => exact Or.inl ⟨_, w₀.withDB db₂, rfl, by simp [World.withDB]⟩
  | false =>
  cases env.fails (.deleteRound round.2) with
  | true => exact Or.inl ⟨_, w₀.withDB db₃, rfl, by simp [World.withDB]⟩
  | false => exact Or.inr ⟨_, rfl, rfl⟩

section Delete

variable {db : DB} {roundID : ℕ}

/-- The submissions that remain are those of other rounds. -/
theorem mem_dropSubmissions {rs : RoundSubmission} :
    rs ∈ (db.dropSubmissions roundID).roundSubmissions.rows ↔
      rs ∈ db.roundSubmissions.rows ∧ rs.roundID ≠ roundID := by
  refine List.mem_filter.trans (and_congr_right fun _ => ?_)
  rw [Bool.not_eq_true', decide_eq_false_iff_not]

/-- The participants that remain are those of other rounds. -/
theorem mem_dropParticipants {p : RoundParticipant} :
    p ∈ (db.dropParticipants roundID).participants.rows ↔
      p ∈ db.participants.rows ∧ p.roundID ≠ roundID := by
  refine List.mem_filter.trans (and_congr_right fun _ => ?_)
  rw [Bool.not_eq_true', decide_eq_false_iff_not]

/-- The links that remain are those of other rounds. -/
theorem mem_dropProblems {rp : ℕ × ℕ} : rp ∈ (db.dropProblems roundID).roundProblems ↔
    rp ∈ db.roundProblems ∧ rp.1 ≠ roundID := by
  refine List.mem_filter.trans (and_congr_right fun _ => ?_)
  rw [decide_eq_true_eq]

/-- The rounds that remain are the other ones. -/
theorem mem_dropRound {r : Round} : r ∈ (db.dropRound roundID).rounds.rows ↔
    r ∈ db.rounds.rows ∧ r.id ≠ roundID := by
  refine List.mem_filter.trans (and_congr_right fun _ => ?_)
  rw [Bool.not_eq_true', decide_eq_false_iff_not]

/-- Nothing refers to a submission to a round. -/
theorem Referential.dropSubmissions (h : Referential db) (roundID : ℕ) :
    Referential (db.dropSubmissions roundID) where
  rounds := h.rounds
  problemSets := h.problemSets
  participants := h.participants
  roundSubmissions rs hrs := h.roundSubmissions rs (mem_dropSubmissions.mp hrs).1

/-- Participants may go once their submissions are gone. -/
theorem Referential.dropParticipants (h : Referential db)
    (hnone : ∀ rs ∈ db.roundSubmissions.rows, rs.roundID ≠ roundID) :
    Referential (db.dropParticipants roundID) where
  rounds := h.rounds
  problemSets := h.problemSets
  participants p hp := h.participants p (mem_dropParticipants.mp hp).1
  roundSubmissions rs hrs := by
    obtain ⟨p, hp, hid, hround⟩ := h.roundSubmissions rs hrs
    refine ⟨p, mem_dropParticipants.mpr ⟨hp, ?_⟩, hid, hround⟩
    rw [hround]
    exact hnone rs hrs

/-- Nothing refers to a link between a round and a problem. -/
theorem Referential.dropProblems (h : Referential db) (roundID : ℕ) :
    Referential (db.dropProblems roundID) where
  rounds := h.rounds
  problemSets rp hrp := h.problemSets rp (mem_dropProblems.mp hrp).1
  participants := h.participants
  roundSubmissions := h.roundSubmissions

/-- A round may go once its participants and its problem set are gone. -/
theorem Referential.dropRound (h : Referential db)
    (hproblems : ∀ rp ∈ db.roundProblems, rp.1 ≠ roundID)
    (hparticipants : ∀ p ∈ db.participants.rows, p.roundID ≠ roundID) :
    Referential (db.dropRound roundID) where
  rounds r hr := h.rounds r (mem_dropRound.mp hr).1
  problemSets rp hrp := by
    obtain ⟨⟨r, hr, hid⟩, hproblem⟩ := h.problemSets rp hrp
    refine ⟨⟨r, mem_dropRound.mpr ⟨hr, ?_⟩, hid⟩, hproblem⟩
    rw [hid]
    exact hproblems rp hrp
  participants p hp := by
    obtain ⟨r, hr, hid⟩ := h.participants p hp
    refine ⟨r, mem_dropRound.mpr ⟨hr, ?_⟩, hid⟩
    rw [hid]
    exact hparticipants p hp
  roundSubmissions := h.roundSubmissions

/-- The references are intact at every stage of the deletion of a round. -/
theorem Referential.stages (h : Referential db) (roundID : ℕ) :
    ∀ db' ∈ db.stages roundID, Referential db' := by
  have hsubmissions := h.dropSubmissions roundID
  have hparticipants := hsubmissions.dropParticipants fun rs hrs => (mem_dropSubmissions.mp hrs).2
  simp only [DB.stages, List.mem_cons, List.not_mem_nil, or_false, forall_eq_or_imp, forall_eq]
  exact ⟨hparticipants.dropProblems roundID, hparticipants, hsubmissions, h⟩

/-- A round can be deleted when what refers to it is deleted before. -/
theorem Referential.withoutRound (h : Referential db) (roundID : ℕ) :
    Referential (db.withoutRound roundID) := by
  refine (h.stages roundID _ List.mem_cons_self).dropRound ?_ fun p hp => ?_
  · exact fun rp hrp => (mem_dropProblems.mp hrp).2
  · exact (mem_dropParticipants.mp hp).2

/-- The row of a room may go, with its rounds, once none of these has participants. -/
theorem Referential.deleteRoomRow (h : Referential db) {roomID : RoomID}
    (hnone : ∀ r ∈ db.rounds.rows, r.roomID = roomID →
      ∀ p ∈ db.participants.rows, p.roundID ≠ r.id) : Referential (db.deleteRoomRow roomID) where
  rounds r hr := by
    obtain ⟨hr, hroom⟩ := List.mem_filter.mp hr
    rw [Bool.not_eq_true', decide_eq_false_iff_not] at hroom
    obtain ⟨room, hmem, hid⟩ := h.rounds r hr
    refine ⟨room, List.mem_filter.mpr ⟨hmem, ?_⟩, hid⟩
    rw [decide_eq_true_eq, hid]
    exact hroom
  problemSets rp hrp := by
    obtain ⟨hrp, hother⟩ := List.mem_filter.mp hrp
    obtain ⟨⟨r, hr, hid⟩, hproblem⟩ := h.problemSets rp hrp
    refine ⟨⟨r, List.mem_filter.mpr ⟨hr, ?_⟩, hid⟩, hproblem⟩
    rw [Bool.not_eq_true', List.any_eq_false] at hother
    rw [Bool.not_eq_true', decide_eq_false_iff_not]
    exact fun hroom => hother r hr (decide_eq_true ⟨hid, hroom⟩)
  participants p hp := by
    obtain ⟨r, hr, hid⟩ := h.participants p hp
    refine ⟨r, List.mem_filter.mpr ⟨hr, ?_⟩, hid⟩
    rw [Bool.not_eq_true', decide_eq_false_iff_not]
    exact fun hroom => hnone r hr hroom p hp hid.symm
  roundSubmissions := h.roundSubmissions

/-- The rounds that are left when some were deleted. -/
theorem referential_deleteRounds (env : Env) : ∀ (l : List (Round × ℕ)) (w : World),
    Referential w.db →
      Referential ((Call.forEach l (deleteRound env)).run w).2.db ∧
      (∀ w', (Call.forEach l (deleteRound env)).run w = (.ok (), w') →
        (∀ r ∈ w'.db.rounds.rows, r ∈ w.db.rounds.rows ∧ ∀ b ∈ l, r.id ≠ b.1.id) ∧
        ∀ p ∈ w'.db.participants.rows, p ∈ w.db.participants.rows)
  | [], w, h => by
    refine ⟨h, ?_⟩
    rintro w' ⟨⟩
    exact ⟨fun r hr => ⟨hr, by simp⟩, fun p hp => hp⟩
  | b :: l, w, h => by
    rw [Call.forEach_cons]
    -- The loop stops at the first round that fails, at one of its stages.
    rcases deleteRound_cases env b w with ⟨e, w₁, hrun, hstage⟩ | ⟨w₁, hrun, hdb⟩
    · rw [Call.bind_err hrun]
      refine ⟨h.stages _ _ hstage, ?_⟩
      rintro w' ⟨⟩
    · rw [Call.bind_ok hrun]
      obtain ⟨hrest, hok⟩ := referential_deleteRounds env l w₁ (hdb ▸ h.withoutRound b.1.id)
      refine ⟨hrest, fun w' hw' => ?_⟩
      obtain ⟨hrounds, hparticipants⟩ := hok w' hw'
      refine ⟨fun r hr => ?_, fun p hp => ?_⟩
      · -- What is left at the end was left by this round as well.
        obtain ⟨hold, hne⟩ := hrounds r hr
        rw [hdb] at hold
        obtain ⟨hold, hne'⟩ := mem_dropRound.mp hold
        exact ⟨hold, List.forall_mem_cons.mpr ⟨hne', hne⟩⟩
      · have hmem := hparticipants p hp
        rw [hdb] at hmem
        exact (mem_dropParticipants.mp hmem).1

end Delete

section Room

variable {env : Env} {room : Room} {rounds : List Round} {w : World}

/-- The members of a room are kept in Redis, and deleted there. -/
theorem keeps_ledger_deleteJoinMembers (env : Env) (roomID : RoomID) :
    Call.Keeps World.ledger (deleteJoinMembers env roomID) := by
  refine Call.Keeps.bind (Call.Keeps.read _) fun members => Call.Keeps.bind
    (Call.Keeps.io _ _ (Call.Keeps.write fun _ => rfl)) fun _ => Call.Keeps.forEach fun member _ => ?_
  exact keeps_logged (Call.Keeps.io _ _ (Call.Keeps.write fun _ => rfl))

/-- A room is deleted without breaking a reference, however far it gets, when its rounds were
loaded, or have no participants. -/
theorem referential_deleteRoom (h : Referential w.db)
    (hloaded : ∀ r ∈ w.db.rounds.rows, r.roomID = room.id →
      r ∈ rounds ∨ ∀ p ∈ w.db.participants.rows, p.roundID ≠ r.id) :
    Referential ((deleteRoom env room rounds).run w).2.db := by
  have hshrinks := shrinks_deleteJoinMembers env room.id w
  have hmembers := h.of_keeps (keeps_ledger_deleteJoinMembers env room.id)
  refine Call.after_bind (Q := fun w : World => Referential w.db) hmembers fun _ w₁ hrun => ?_
  rw [hrun] at hshrinks hmembers
  -- The rounds go one by one, and only then the row of the room.
  obtain ⟨hloop, hok⟩ := referential_deleteRounds env rounds.zipIdx w₁ hmembers
  refine Call.after_bind (Q := fun w : World => Referential w.db) hloop fun _ w₂ hrun₂ => ?_
  rw [hrun₂] at hloop
  obtain ⟨hrounds, hparticipants⟩ := hok w₂ hrun₂
  cases env.fails .deleteRoom with
  | true => exact hloop
  | false =>
    rw [Call.io_false, Call.run_read_bind]
    split
    · exact hloop
    · refine hloop.deleteRoomRow fun r hr hroom p hp => ?_
      obtain ⟨hr₁, hne⟩ := hrounds r hr
      rcases hloaded r (hshrinks.rounds.subset hr₁) hroom with hmem | hnone
      · -- A loaded round is among those that are gone.
        obtain ⟨i, hi, hget⟩ := List.getElem_of_mem hmem
        have hzip : (r, i) ∈ rounds.zipIdx := by
          rw [List.mem_zipIdx_iff_getElem?, ← hget]
          exact List.getElem?_eq_getElem hi
        exact absurd rfl (hne (r, i) hzip)
      · exact hnone p (hshrinks.participants.subset (hparticipants p hp))

/-- Deleting a room that is found keeps references, wherever it stops. -/
theorem referential_deleteFoundRoom (h : Referential w.db) (a : Arrangement Round) :
    Referential ((deleteRoom env room (w.db.roundsOf a room.id)).run w).2.db :=
  referential_deleteRoom h fun _ hr hroom =>
    Or.inl (a.mem_order.mpr (List.mem_filter.mpr ⟨hr, decide_eq_true hroom⟩))

end Room

/-! ## Joining and leaving -/

section Members

variable {env : Env} {roomID : RoomID} {userID : AuthID} {w : World}

/-- The round that a joining user takes part in is one that was loaded. -/
theorem mem_of_runningRound {rounds : List Round} {round : Round}
    (h : runningRound rounds = some round) : round ∈ rounds := by
  unfold runningRound at h
  exact List.mem_of_getLast? (Option.filter_eq_some_iff.mp h).1

/-- Joining keeps references. -/
theorem referential_joinRoom (h : Referential w.db) :
    Referential ((joinRoom env roomID userID).run w).2.db := by
  rcases joinRoom_cases env roomID userID w with ⟨e, hrun, -⟩ |
    ⟨room, -, -, ⟨-, hrun⟩ | ⟨-, o, rs, hrun, -⟩⟩
  · rwa [hrun]
  · rw [hrun]
    exact h
  · rw [hrun]
    show Referential ((w.joined env roomID userID).entered env _ userID).db
    unfold World.entered
    cases hrunning : runningRound (w.db.roundsOf env.rounds room.id) with
    | none => exact h
    | some round =>
      dsimp only
      split
      · have hmem := env.rounds.mem_order.mp (mem_of_runningRound hrunning)
        exact h.addParticipant _ userID ⟨round, (List.mem_filter.mp hmem).1, rfl⟩
      · exact h

/-- Handing a room over changes no key. -/
theorem keeps_ledger_replaceAdmin (env : Env) (roomID : RoomID) (room : Room) (userID : AuthID) :
    Call.Keeps World.ledger (replaceAdmin env roomID room userID) := by
  refine Call.Keeps.ite _ (Call.Keeps.bind ?_ fun admin => Call.Keeps.bind
    (Call.Keeps.io _ _ (Call.Keeps.write fun w => ?_)) fun _ =>
      Call.Keeps.bind (Call.Keeps.read _) fun _ =>
        keeps_logged (keeps_sendMessage (fun _ _ => rfl) _ _)) (Call.Keeps.pure _)
  · refine Call.Keeps.bind (Call.Keeps.io _ _ (Call.Keeps.read _)) fun members => ?_
    cases members with
    | nil => exact Call.Keeps.fail _
    | cons user others => exact Call.Keeps.pure _
  · -- The room keeps its key.
    unfold World.ledger
    congr 1
    show (w.db.rooms.map _).map Room.id = w.db.rooms.map Room.id
    rw [List.map_map]
    refine List.map_congr_left fun r _ => ?_
    rw [Function.comp_apply]
    split <;> rfl

/-- Leaving keeps references, also when the last member leaves. -/
theorem referential_leaveRoom (h : Referential w.db) :
    Referential ((leaveRoom env roomID userID).run w).2.db := by
  rcases leaveRoom_cases env roomID userID w with ⟨e, hrun, -⟩ | ⟨room, hroom, -,
    ⟨-, e, hrun⟩ | ⟨-, rs, ⟨-, hrun⟩ | ⟨-, hrun⟩⟩⟩
  · rwa [hrun]
  · rw [hrun]
    exact h
  · rw [hrun]
    exact h
  · have hleft : Referential ((w.left env roomID userID).tell rs).db := h
    rw [hrun]
    rcases settleRoom_cases env room (w.db.roundsOf env.rounds room.id) roomID userID
      ((w.left env roomID userID).tell rs) with ⟨-, hsettle⟩ | ⟨-, ⟨-, hsettle⟩ | ⟨-, hsettle⟩⟩
    · rw [hsettle]
      exact hleft
    · rw [hsettle]
      exact referential_deleteFoundRoom (w := ((w.left env roomID userID).tell rs).keptOpen roomID)
        hleft env.rounds
    · rw [hsettle]
      exact hleft.of_keeps (keeps_ledger_replaceAdmin env roomID room userID)

/-- The expiry of a room keeps references. -/
theorem referential_expireRoom (h : Referential w.db) :
    Referential ((expireRoom env roomID).run w).2.db := by
  unfold expireRoom
  by_cases hfind : ∃ room, Findable env roomID w.db room
  swap
  · obtain ⟨e, hrun⟩ := findRoomByID_fails fun room h => hfind ⟨room, h⟩
    rw [Call.attempt_err hrun]
    exact h
  obtain ⟨room, hroom⟩ := hfind
  rw [Call.attempt_ok (findRoomByID_run hroom)]
  have hdelete : Referential ((deleteRoom env room (w.db.roundsOf env.rounds room.id)).run w).2.db :=
    referential_deleteFoundRoom h env.rounds
  refine Call.after_bind (Q := fun w : World => Referential w.db) hdelete fun _ w₁ hrun => ?_
  rw [hrun] at hdelete
  exact hdelete.of_keeps (keeps_logged (keeps_sendMessage (fun _ _ => rfl) _ _))

end Members

/-! ## Creating a round -/

section Create

variable {env : Env} {params : RoundCreationParameters} {roomID : RoomID} {w : World}

/-- The round service leaves the participants, and adds at most a round under a new key. -/
structure Founds (w w' : World) : Prop where
  referential : Referential w'.db
  participants : w'.db.participants = w.db.participants
  rounds : ∀ r ∈ w'.db.rounds.rows, r ∈ w.db.rounds.rows ∨ r.id ∉ w.db.rounds.ids

/-- Nothing was founded yet. -/
theorem Founds.refl (h : Referential w.db) : Founds w w := ⟨h, rfl, fun _ hr => Or.inl hr⟩

/-- `CreateRound` stores a round of a room that is there. -/
theorem founds_roundServiceCreateRound (h : Referential w.db)
    (hroom : ∃ room ∈ w.db.rooms, room.id = roomID) :
    Founds w ((roundServiceCreateRound env params roomID).run w).2 := by
  unfold roundServiceCreateRound
  cases hfails : env.fails .insertRound with
  | true =>
    rw [Call.bind_err (insertRound_fails hfails params.duration roomID w)]
    exact .refl h
  | false =>
  let added := newRound env.now params.duration roomID (w.db.rounds.fresh env.roundHint)
  let w₁ : World := w.withDB (w.db.addRound env params.duration roomID)
  -- The row is stored first, and stays when a later statement fails.
  have hadded : Referential w₁.db := h.addRound env params.duration hroom
  have hrows : ∀ r ∈ w₁.db.rounds.rows, r ∈ w.db.rounds.rows ∨ r.id ∉ w.db.rounds.ids := by
    intro r hr
    refine (List.mem_append.mp hr).imp_right fun hr => ?_
    rw [List.mem_singleton.mp hr]
    exact w.db.rounds.fresh_not_mem env.roundHint
  have hinsert : (insertRound env params.duration roomID).run w = (.ok added, w₁) :=
    insertRound_run hfails params.duration roomID w
  rw [Call.bind_ok hinsert]
  have hselect : Looks (selectProblems env params) w₁ (Selectable env params w₁.db) :=
    looks_selectProblems params
  rcases hselect with ⟨-, ⟨problemSet, fallbackUsed⟩, hrun⟩ | ⟨-, e, hrun⟩
  swap
  · rw [Call.bind_err hrun]
    exact ⟨hadded, rfl, hrows⟩
  rw [Call.bind_ok hrun]
  cases env.fails .appendProblems with
  | true => exact ⟨hadded, rfl, hrows⟩
  | false =>
    -- The problem set refers to the new row, and to problems that the selection has read.
    have hround : ∃ r ∈ w₁.db.rounds.rows, r.id = added.id :=
      ⟨added, List.mem_append_right _ (List.mem_singleton_self _), rfl⟩
    have happended : Referential (w₁.db.appendProblems added.id problemSet) :=
      hadded.appendProblems hround (nodup_selectProblems hrun).2
    cases env.fails .setMostRecentRound with
    | true => exact ⟨happended, rfl, hrows⟩
    | false => exact ⟨happended, rfl, hrows⟩

/-- A room is cleaned up only when it had no round before the new one. -/
theorem Founds.cleanUpRoom {w' : World} (hfounds : Founds w w') (h : Referential w.db) (room : Room)
    (roomID : RoomID) :
    Referential ((Central.cleanUpRoom env roomID room (w.db.roundsOf env.rounds room.id)).run
      w').2.db := by
  unfold Central.cleanUpRoom
  by_cases hrounds : w.db.roundsOf env.rounds room.id = []
  swap
  · rw [if_neg hrounds]
    exact hfounds.referential
  rw [if_pos hrounds, hrounds]
  have hcancel : (cancelRoomExpiry roomID).run w' = (.ok (), w'.keptOpen roomID) := rfl
  rw [Call.bind_ok hcancel, logged_state]
  refine referential_deleteRoom (w := w'.keptOpen roomID) hfounds.referential fun r hr hroom => ?_
  rcases hfounds.rounds r hr with hold | hnew
  · have hloaded : r ∈ w.db.roundsOf env.rounds room.id :=
      env.rounds.mem_order.mpr (List.mem_filter.mpr ⟨hold, decide_eq_true hroom⟩)
    rw [hrounds] at hloaded
    cases hloaded
  · -- Nobody takes part in a round whose key was not in use.
    refine Or.inr fun p hp hid => ?_
    have hpart : p ∈ w'.db.participants.rows := hp
    rw [hfounds.participants] at hpart
    obtain ⟨r', hr', hid'⟩ := h.participants p hpart
    exact hnew (List.mem_map.mpr ⟨r', hr', hid'.trans hid⟩)

/-- Creating a round keeps references, wherever it stops. -/
theorem referential_createRound (h : Referential w.db) (maxNumRoundsPerRoom : ℤ) :
    Referential ((createRound env maxNumRoundsPerRoom params roomID).run w).2.db := by
  unfold createRound
  by_cases hfind : ∃ room, Findable env roomID w.db room
  swap
  · obtain ⟨e, hrun⟩ := findRoomByID_fails fun room h => hfind ⟨room, h⟩
    rw [Call.bind_err hrun]
    exact h
  obtain ⟨room, hroom⟩ := hfind
  rw [Call.bind_ok (findRoomByID_run hroom)]
  have hlimit : Call.Keeps id (checkRoundLimitExceeded env maxNumRoundsPerRoom room) :=
    Call.Keeps.io _ _ (Call.Keeps.read _)
  -- The check of the limit only reads.
  have hsame : ((checkRoundLimitExceeded env maxNumRoundsPerRoom room).run w).2 = w := hlimit w
  refine Call.after_bind (Q := fun w : World => Referential w.db) (by rw [hsame]; exact h)
    fun exceeded t hrun => ?_
  obtain rfl : t = w := by rwa [hrun] at hsame
  split
  · exact h
  have hstored : ∃ r ∈ t.db.rooms, r.id = room.id :=
    ⟨room, List.mem_of_find?_eq_some hroom.stored, rfl⟩
  -- What follows is attempted: an error leads to the clean-up of the room.
  have hfounds : Founds t ((roundServiceCreateRound env params room.id).run t).2 :=
    founds_roundServiceCreateRound h hstored
  refine Call.after_bind (Q := fun w : World => Referential w.db)
    (by rw [Call.state_attempt]; exact hfounds.referential) fun result t' hattempt => ?_
  have ht' : t' = ((roundServiceCreateRound env params room.id).run t).2 := by
    rw [← Call.state_attempt, hattempt]
  rw [← ht'] at hfounds
  cases result with
  | ok made =>
    have hdone : Call.Keeps World.ledger (do
        Call.io (env.fails .appendRound) .io (pure ())
        pure made : Service (Round × Bool)) :=
      Call.Keeps.bind (Call.Keeps.io _ _ (Call.Keeps.pure _)) fun _ => Call.Keeps.pure _
    exact hfounds.referential.of_keeps hdone
  | error e =>
    have hclean : Referential ((Central.cleanUpRoom env roomID room
        (t.db.roundsOf env.rounds room.id)).run t').2.db := hfounds.cleanUpRoom h room roomID
    refine Call.after_bind (Q := fun w : World => Referential w.db) hclean fun _ t'' hrun => ?_
    rw [hrun] at hclean
    exact hclean

end Create

/-! ## Starting a round -/

section Start

variable {env : Env} {w : World} {roundID : ℕ}

/-- The references are intact, and the round is there. -/
def IntactWith (roundID : ℕ) (w : World) : Prop :=
  Referential w.db ∧ ∃ r ∈ w.db.rounds.rows, r.id = roundID

/-- What holds before holds after. -/
def Keeping (I : World → Prop) (w w' : World) : Prop := I w → I w'

/-- What holds still holds. -/
theorem Keeping.refl (I : World → Prop) (w : World) : Keeping I w w := id

/-- What two steps keep, both together keep. -/
theorem Keeping.trans (I : World → Prop) (w₁ w₂ w₃ : World) (h : Keeping I w₁ w₂)
    (h' : Keeping I w₂ w₃) : Keeping I w₁ w₃ := fun hI => h' (h hI)

/-- References depend only on the ledger. -/
theorem IntactWith.of_ledger {w' : World} (hledger : w'.ledger = w.ledger)
    (h : IntactWith roundID w) : IntactWith roundID w' := by
  refine ⟨h.1.of_ledger hledger, ?_⟩
  rw [exists_round_iff, hledger, ← exists_round_iff]
  exact h.2

/-- A call that leaves the ledger keeps references. -/
theorem keeping_of_keeps {α : Type} {x : Service α} (hx : Call.Keeps World.ledger x) :
    Call.Within (Keeping (IntactWith roundID)) x := fun w h => h.of_ledger (hx w)

/-- Enrolling users in a round that is there keeps references. -/
theorem keeping_enrolAll (env : Env) (users : List AuthID) :
    Call.Within (Keeping (IntactWith roundID)) (enrolAll env roundID users) := by
  refine Call.Within.bind (Keeping.trans _) (keeping_of_keeps (Call.Keeps.io _ _ (Call.Keeps.pure _)))
    fun _ => Call.Within.bind (Keeping.trans _) (Call.Within.forEach (Keeping.refl _)
      (Keeping.trans _) fun user _ => ?_) fun _ =>
        keeping_of_keeps (Call.Keeps.io _ _ (Call.Keeps.pure _))
  refine Call.Within.bind (Keeping.trans _) (Call.Within.io (Keeping.refl _) _ _
    (Call.Within.write fun w h => ?_)) fun _ =>
      keeping_of_keeps (Call.Keeps.io _ _ (Call.Keeps.write fun _ => rfl))
  exact ⟨h.1.addParticipant _ _ h.2, h.2⟩

/-- Starting a round that is there: its status changes, and the users are enrolled or not. -/
theorem keeping_initiateRoundStart (env : Env) (round : Round) (users : List AuthID) :
    Call.Within (Keeping (IntactWith round.id)) (initiateRoundStart env round users) := by
  refine Call.Within.bind (Keeping.trans _) (keeping_of_keeps ?_) fun problemSet =>
    Call.Within.bind (Keeping.trans _) (Call.Within.transaction ?_ (keeping_enrolAll env users))
      fun _ => Call.Within.bind (Keeping.trans _) (keeping_of_keeps ?_) fun _ =>
        Call.Within.pure (Keeping.refl _) _
  · refine Call.Keeps.ite _ (Call.Keeps.fail _) (Call.Keeps.bind (Call.Keeps.io _ _
      (Call.Keeps.read _)) fun problemSet => Call.Keeps.ite _ (Call.Keeps.fail _)
        (Call.Keeps.bind (Call.Keeps.io _ _ (Call.Keeps.write fun w => ?_)) fun _ =>
          Call.Keeps.bind (keeps_logged (keeps_sendMessage (fun _ _ => rfl) _ _)) fun _ =>
            Call.Keeps.pure _))
    exact ledger_modify (Round.id_start env.now) (fun _ => rfl) round.id w
  · -- A rollback leads back to the database before the enrolment.
    exact fun s t _ h => h
  · refine Call.Keeps.io _ _ ?_
    split
    · exact Call.Keeps.write fun _ => rfl
    · exact Call.Keeps.fail _

/-- Starting a round keeps references, wherever it stops. -/
theorem referential_startRound (h : Referential w.db) (roomID : RoomID) (userID : AuthID) :
    Referential ((startRoundByRoomID env roomID userID).run w).2.db := by
  unfold startRoundByRoomID
  cases hchosen : w.db.chosenRound env roomID userID .created with
  | none =>
    obtain ⟨e, hrun⟩ := findRoundToStart_fails hchosen
    rw [Call.bind_err hrun]
    exact h
  | some round =>
    rw [Call.bind_ok (findRoundToStart_run hchosen)]
    have hround : IntactWith round.id w := ⟨h, round, (mem_of_chosenRound hchosen).1.1, rfl⟩
    have hrest : Call.Within (Keeping (IntactWith round.id)) (do
        let activeUsers ← findActiveUsers env roomID
        let started ← initiateRoundStart env round activeUsers
        Call.forEach activeUsers.zipIdx (announceParticipant env roomID)
        pure started) := by
      refine Call.Within.bind (Keeping.trans _) (keeping_of_keeps (Call.Keeps.io _ _
        (Call.Keeps.read _))) fun users => Call.Within.bind (Keeping.trans _)
          (keeping_initiateRoundStart env round users) fun started => keeping_of_keeps ?_
      exact Call.Keeps.bind (Call.Keeps.forEach fun user _ => Call.Keeps.bind (Call.Keeps.read _)
        fun _ => keeps_logged (keeps_sendMessage (fun _ _ => rfl) _ _)) fun _ => Call.Keeps.pure _
    exact (hrest w hround).1

end Start

/-! ## Taking in a submission -/

section Submit

variable {env : Env} {params : RoundSubmissionParameters} {w : World}

/-- What follows a stored submission leaves the ledger. -/
theorem keeps_ledger_publishSubmission (env : Env) (params : RoundSubmissionParameters)
    (ctx : SubmissionContext) (author : AuthID) (rs : RoundSubmission) (s : Submission) :
    Call.Keeps World.ledger (publishSubmission env params ctx author rs s) := by
  have hsend : ∀ req call, Call.Keeps World.ledger (logged (sendMessage (env.reply call) req)) :=
    fun req call => keeps_logged (keeps_sendMessage (fun _ _ => rfl) _ _)
  refine Call.Keeps.bind (keeps_logged (Call.Keeps.io _ _ (Call.Keeps.write fun _ => rfl)))
    fun _ => Call.Keeps.bind (Call.Keeps.bind (Call.Keeps.read _) fun _ => hsend _ _) fun _ =>
      Call.Keeps.ite _ (Call.Keeps.bind ?_ fun _ => Call.Keeps.bind (Call.Keeps.read _)
        fun count => Call.Keeps.ite _ (Call.Keeps.bind (Call.Keeps.read _) fun problemSet => ?_)
          (Call.Keeps.pure _)) (Call.Keeps.pure _)
  · refine Call.Keeps.ite _ (keeps_logged (Call.Keeps.io _ _ (Call.Keeps.write fun w => ?_)))
      (Call.Keeps.pure _)
    -- The participant who solved one more keeps his key and his round.
    unfold World.ledger
    congr 1
    show (w.db.participants.modify ctx.participant.id RoundParticipant.solveOne
      RoundParticipant.id_solveOne).rows.map _ = w.db.participants.rows.map _
    rw [Table.rows_modify, List.map_map]
    refine List.map_congr_left fun p _ => ?_
    rw [Function.comp_apply]
    split <;> rfl
  · cases problemSet[ctx.problemIndex + 1]? with
    | none => exact Call.Keeps.pure _
    | some nextProblem => exact hsend _ _

/-- A submission to a round refers to the participant and the problem that were looked up. -/
theorem referential_createRoundSubmission (h : Referential w.db) (author : AuthID) :
    Referential ((createRoundSubmission env params author).run w).2.db := by
  have hpure : ((checkSubmission env params author).run w).2 = w :=
    (checkSubmission_pure env params author w).symm
  unfold createRoundSubmission
  refine Call.after_bind (Q := fun w : World => Referential w.db) (by rw [hpure]; exact h)
    fun ctx t hrun => ?_
  obtain rfl : t = w := by rwa [hrun] at hpure
  cases hstore : env.fails .createSubmission with
  | true =>
    have hfails : (storeSubmission env params ctx).run t = (.err .io, t) := by
      unfold storeSubmission
      rw [hstore]
      rfl
    rw [Call.bind_err hfails]
    exact h
  | false =>
    rw [Call.bind_ok (storeSubmission_run hstore)]
    -- The participant was found in the round that was found.
    have hfound := checkSubmission_found hrun
    have hid : ctx.round.id = params.roundID := (Table.find?_eq_some.mp hfound.round).2
    have hstored : Referential (t.record env params ctx).db :=
      h.addSubmission env params hfound.participant (hfound.ofRound.trans hid.symm)
    refine hstored.of_keeps ?_
    exact Call.Keeps.bind (Call.Keeps.io _ _ (Call.Keeps.pure _)) fun _ => Call.Keeps.bind
      (Call.Keeps.io _ _ (Call.Keeps.pure _)) fun _ => Call.Keeps.bind
        (keeps_ledger_publishSubmission env params ctx author _ _) fun _ => Call.Keeps.pure _

/-- So does a submission that names the room. -/
theorem referential_createRoomSubmission (h : Referential w.db) (roomID : RoomID)
    (userID : AuthID) : Referential ((createRoomSubmission env roomID params userID).run w).2.db := by
  have hfind : ((findRoomByID env roomID).run w).2 = w :=
    keeps_findRoomByID (f := id) env roomID w
  unfold createRoomSubmission
  refine Call.after_bind (Q := fun w : World => Referential w.db) (by rw [hfind]; exact h)
    fun found t hrun => ?_
  obtain rfl : t = w := by rwa [hrun] at hfind
  obtain ⟨room, rounds⟩ := found
  dsimp only
  cases rounds.getLast? with
  | none => exact h
  | some round => exact referential_createRoundSubmission h userID

end Submit

/-! ## Every event -/

/-- Every event of the rooms and queues keeps the references intact. -/
theorem referential_happen {w : World} (h : Referential w.db) (e : HistoryEvent) :
    Referential (w.happen e).db := by
  -- A change of a round that leaves its room touches no reference.
  have hmodify : ∀ {f : Round → Round} (hf : ∀ r, Row.id (f r) = Row.id r) (roundID : ℕ),
      (∀ r, (f r).roomID = r.roomID) →
      Referential { w.db with rounds := w.db.rounds.modify roundID f hf } :=
    fun hf roundID hroom => h.of_ledger <|
      show (w.withDB { w.db with rounds := w.db.rounds.modify roundID _ hf }).ledger = w.ledger from
        ledger_modify hf hroom roundID w
  cases e with
  | forward => exact h
  | process env =>
    refine h.of_ledger ?_
    unfold World.ledger
    rw [show (w.happen (.process env)).db = _ from (grades_listen env w).db]
  | request env event =>
  show Referential (w.serve (env, event)).db
  cases event with
  | joinRoom roomID userID => exact referential_joinRoom h
  | leaveRoom roomID userID => exact referential_leaveRoom h
  | expireRoom roomID => exact referential_expireRoom h
  | createRound maxNumRoundsPerRoom params roomID =>
    exact referential_createRound h maxNumRoundsPerRoom
  | setRoundDuration roomID userID duration =>
    show Referential ((setRoundDurationByRoomID env roomID userID duration).run w).2.db
    rcases setRoundDurationByRoomID_cases env roomID userID duration w with
      hsame | ⟨round, -, -, -, hrun⟩
    · rwa [hsame]
    · rw [hrun]
      exact hmodify (Round.id_setDuration duration) round.id fun _ => rfl
  | startRound roomID userID => exact referential_startRound h roomID userID
  | endRound roomID userID =>
    show Referential ((endRoundByRoomID env roomID userID).run w).2.db
    rcases endRoundByRoomID_cases env roomID userID w with ⟨o, hrun, -⟩ | ⟨round, -, -, hrun⟩
    · rwa [hrun]
    · rw [hrun]
      exact hmodify Round.id_finish round.id fun _ => rfl
  | createSubmission roomID params userID =>
    exact referential_createRoomSubmission h roomID userID
  | runEndTask task =>
    -- The task is over, or it cannot end its round, or the round is ended.
    rcases serve_runEndTask_cases env task w with hserve | ⟨-, ⟨-, hserve⟩ | ⟨-, hserve⟩⟩
    · rwa [hserve]
    · rw [hserve]
      exact h
    · rw [hserve]
      exact hmodify Round.id_finish task.roundID fun _ => rfl
  | restart => exact h

/-- Every event of the service keeps references. -/
theorem referential_siteHappen {s : Site} (h : Referential s.world.db) (e : SiteEvent) :
    Referential (s.happen e).world.db := by
  rcases happen_cases s e with hsame | ⟨env, dto, userAuthID, code, -, -, hopens⟩ |
    ⟨expiryTasks, event, -, hstate⟩
  · rwa [hsame]
  · rw [hopens.db]
    exact h.addRoom _
  · rw [hstate]
    exact referential_happen (w := s.world.withExpiry expiryTasks) h event

/-- Along every run of central-service, whatever fails, every reference leads somewhere: each round
to a room, each entry of a problem set to a round and a problem, each participant to a round, and
each round submission to a participant of its round. -/
theorem referential_along (s : Site) (es : List SiteEvent) (h : Referential s.world.db) :
    Throughout Site.happen (fun s => Referential s.world.db) s es := by
  have halong : Along Site.happen (fun _ _ => True) s es := Along.of_forall fun _ _ => trivial
  exact invariant_along (fun _ e hs _ => referential_siteHappen hs e) h halong

/-- A room is left while its round cannot be deleted, so that its row stays without its problems. -/
def leaveHalfWay : List SiteEvent :=
  [.request { SiteEnv.faultless with
    toEnv := { Env.faultless 0 with fails := fun op => decide (op = .deleteRound 0) } }
    (.leaveRoom roomOne host)]

/-- The last member leaves, and the deletion of the room stops half way. -/
theorem referential_leaveHalfWay :
    Throughout Site.happen (fun s => Referential s.world.db) .ready leaveHalfWay := by
  refine referential_along .ready leaveHalfWay ⟨?_, ?_, ?_, ?_⟩
  · decide +kernel
  · decide +kernel
  · decide +kernel
  · decide +kernel

end Bsg.Central
