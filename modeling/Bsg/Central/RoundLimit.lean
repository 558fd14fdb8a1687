import Bsg.Central.CreateRoundTrace
import Bsg.Central.RoundSteps
import Bsg.Foundations.Interleave

/-!
# The limit on the rounds of a room

A room should never have more than `maxNumRoundsPerRoom` rounds that have not ended (`WithinLimit`),
also when several requests to create a round run at the same time. A request counts the rounds and
inserts its row later, in another statement, and requests in between see the same count.
`withinLimit_iff` says that the limit is kept in an interleaving exactly when the check would still
pass whenever a row is inserted.

The pieces of a request are the ones of `createRound`: a request that runs alone does what it does
(`createRound_inPieces`, `shared_createRound`).
-/

namespace Bsg.Central

open Bsg.Foundations

/-- The points at which a request to create a round may be interrupted. -/
inductive CreateStage
  | called
  | loaded (room : Room) (rounds : List Round)
  | admitted (room : Room) (rounds : List Round)
  | inserted (room : Room) (rounds : List Round) (newRound : Round)
  | selected (room : Room) (rounds : List Round) (newRound : Round) (problemSet : List Problem)
      (fallbackUsed : Bool)
  | filled (room : Room) (rounds : List Round) (newRound : Round) (fallbackUsed : Bool)
  | created (newRound : Round) (fallbackUsed : Bool)
  | failed (room : Room) (rounds : List Round) (e : GoError)

/-- Goes on to a point, or to the clean-up when the statement fails. -/
def orCleanUp {α : Type} (room : Room) (rounds : List Round) (x : Service α)
    (next : α → CreateStage) : Service (CreateStage ⊕ (Round × Bool)) := do
  match ← x.attempt with
  | .error e => pure (.inl (.failed room rounds e))
  | .ok a => pure (.inl (next a))

/-- The pieces of `RoomService.CreateRound`, and of the `RoundService.CreateRound` that it calls. -/
def createPiece (env : Env) (maxNumRoundsPerRoom : ℤ) (params : RoundCreationParameters)
    (roomID : RoomID) : CreateStage → Service (CreateStage ⊕ (Round × Bool))
  | .called => do
    let (room, rounds) ← findRoomByID env roomID
    pure (.inl (.loaded room rounds))
  | .loaded room rounds => do
    let roundLimitExceeded ← checkRoundLimitExceeded env maxNumRoundsPerRoom room
    if roundLimitExceeded then .fail (.pointer ⟨400, "Round limit exceeded"⟩)
    else pure (.inl (.admitted room rounds))
  | .admitted room rounds =>
    orCleanUp room rounds (insertRound env params.duration room.id) (.inserted room rounds)
  | .inserted room rounds newRound =>
    orCleanUp room rounds (selectProblems env params) fun (problemSet, fallbackUsed) =>
      .selected room rounds newRound problemSet fallbackUsed
  | .selected room rounds newRound problemSet fallbackUsed =>
    orCleanUp room rounds
      (Call.io (env.fails .appendProblems) .io <| writeDB fun db =>
        db.appendProblems newRound.id problemSet) fun _ =>
      .filled room rounds newRound fallbackUsed
  | .filled room rounds newRound fallbackUsed =>
    orCleanUp room rounds
      (Call.io (env.fails .setMostRecentRound) .io <| writeRedis fun r =>
        { r with mostRecentRound := Function.update r.mostRecentRound room.id (some newRound.id) })
      fun _ => .created newRound fallbackUsed
  | .created newRound fallbackUsed => do
    Call.io (env.fails .appendRound) .io (pure ())
    pure (.inr (newRound, fallbackUsed))
  | .failed room rounds e => do
    cleanUpRoom env roomID room rounds
    .fail e

/-- Requests to create rounds, each with its own parameters and its own text for a room. -/
abbrev Creations := Concurrent World CreateStage GoError (Round × Bool)

/-- One of the requests runs its next piece. -/
def Creations.step (maxNumRoundsPerRoom : ℤ) (params : ℕ → RoundCreationParameters)
    (texts : ℕ → RoomID) : Creations → Env × ℕ → Creations :=
  Concurrent.step fun env i => createPiece env maxNumRoundsPerRoom (params i) (texts i)

/-- The room has no more open rounds than it may. -/
def WithinLimit (maxNumRoundsPerRoom : ℤ) (roomID : RoomID) (c : Creations) : Prop :=
  (c.shared.db.openRounds roomID : ℤ) ≤ maxNumRoundsPerRoom

/-- When a request inserts its row for the room, the check that it made before would still pass. -/
def StillAdmitted (maxNumRoundsPerRoom : ℤ) (roomID : RoomID) (c : Creations) (e : Env × ℕ) : Prop :=
  ∀ room rounds, c.progress e.2 = .running (.admitted room rounds) → room.id = roomID →
    e.1.fails .insertRound = false → (c.shared.db.openRounds roomID : ℤ) < maxNumRoundsPerRoom

/-- Requests of which none has done anything yet. -/
def Creations.begin (w : World) : Creations := ⟨w, fun _ => .running .called⟩

/-! ## The pieces -/

section Pieces

variable {α : Type} {room : Room} {rounds : List Round} {x : Service α} {next : α → CreateStage}
  {w w' : World}

/-- A piece that succeeds goes on. -/
theorem orCleanUp_ok {a : α} (h : x.run w = (.ok a, w')) :
    (orCleanUp room rounds x next).run w = (.ok (.inl (next a)), w') := Call.attempt_ok h _

/-- A piece that fails goes on to the clean-up. -/
theorem orCleanUp_err {e : GoError} (h : x.run w = (.err e, w')) :
    (orCleanUp room rounds x next).run w = (.ok (.inl (.failed room rounds e)), w') :=
  Call.attempt_err h _

/-- A panic is not cleaned up. -/
theorem orCleanUp_panic (h : x.run w = (.panic, w')) :
    (orCleanUp room rounds x next).run w = (.panic, w') := Call.attempt_panic h _

variable {env : Env} {maxNumRoundsPerRoom : ℤ} {params : RoundCreationParameters} {roomID : RoomID}

/-- What `createRound` does with the answer of the round service. -/
def settleCreation (env : Env) (maxNumRoundsPerRoom : ℤ) (params : RoundCreationParameters)
    (roomID : RoomID) (room : Room) (rounds : List Round) :
    Except GoError (Round × Bool) → Service (CreateStage ⊕ (Round × Bool))
  | .error e => createPiece env maxNumRoundsPerRoom params roomID (.failed room rounds e)
  | .ok (newRound, fallbackUsed) =>
    createPiece env maxNumRoundsPerRoom params roomID (.created newRound fallbackUsed)

/-- Neither of the last pieces goes on to another point. -/
theorem settleCreation_last (env : Env) (maxNumRoundsPerRoom : ℤ)
    (params : RoundCreationParameters) (roomID : RoomID) (room : Room) (rounds : List Round)
    (r : Except GoError (Round × Bool)) (w : World) (k : CreateStage) :
    ((settleCreation env maxNumRoundsPerRoom params roomID room rounds r).run w).1 ≠ .ok (.inl k) := by
  cases r with
  | error e =>
    obtain ⟨w', hclean, -⟩ := cleanUpRoom_run env roomID room rounds w
    have hrun : (settleCreation env maxNumRoundsPerRoom params roomID room rounds (.error e)).run w =
        (.err e, w') := Call.bind_ok hclean _
    rw [hrun]
    simp
  | ok result =>
    show ((Call.io (env.fails .appendRound) .io (pure ()) >>= fun _ => pure (.inr result) :
      Service (CreateStage ⊕ (Round × Bool))).run w).1 ≠ _
    cases env.fails .appendRound <;> simp

/-- The rest of the round service from a statement of it on, piece by piece. -/
theorem inOneGo_orCleanUp {k : CreateStage} {g : α → Service (Round × Bool)} {n : ℕ}
    (hpiece : createPiece env maxNumRoundsPerRoom params roomID k = orCleanUp room rounds x next)
    (hrest : ∀ a w, (inOneGo (createPiece env maxNumRoundsPerRoom params roomID) (n + 1)
        (next a)).run w =
      ((g a).attempt >>=
        settleCreation env maxNumRoundsPerRoom params roomID room rounds).run w) (w : World) :
    (inOneGo (createPiece env maxNumRoundsPerRoom params roomID) (n + 2) k).run w =
      ((x >>= g).attempt >>=
        settleCreation env maxNumRoundsPerRoom params roomID room rounds).run w := by
  rcases hx : x.run w with ⟨a | e | _, w'⟩
  · have hok : (x >>= g).run w = (g a).run w' := Call.bind_ok hx g
    rw [inOneGo_inl (by rw [hpiece, orCleanUp_ok hx]), hrest, Call.run_bind, Call.run_bind,
      Call.run_attempt, Call.run_attempt, hok]
  · rw [inOneGo_inl (by rw [hpiece, orCleanUp_err hx]), Call.attempt_err (Call.bind_err hx g)]
    exact inOneGo_last (settleCreation_last env maxNumRoundsPerRoom params roomID room rounds
      (.error e) w')
  · rw [inOneGo_panic (by rw [hpiece, orCleanUp_panic hx]),
      Call.attempt_panic (Call.bind_panic hx g)]

/-- A request that is not interrupted does what `createRound` does. -/
theorem createRound_inPieces (env : Env) (maxNumRoundsPerRoom : ℤ)
    (params : RoundCreationParameters) (roomID : RoomID) (w : World) :
    (inOneGo (createPiece env maxNumRoundsPerRoom params roomID) 7 .called).run w =
      (createRound env maxNumRoundsPerRoom params roomID >>= fun r => pure (.inr r)).run w := by
  -- The round service and what follows it, from the insertion on.
  have hservice : ∀ room rounds w,
      (inOneGo (createPiece env maxNumRoundsPerRoom params roomID) 5 (.admitted room rounds)).run w =
        ((roundServiceCreateRound env params room.id).attempt >>=
          settleCreation env maxNumRoundsPerRoom params roomID room rounds).run w := by
    intro room rounds
    refine inOneGo_orCleanUp rfl fun newRound => ?_
    refine inOneGo_orCleanUp rfl fun (problemSet, fallbackUsed) => ?_
    refine inOneGo_orCleanUp rfl fun _ => ?_
    refine inOneGo_orCleanUp rfl fun _ w => ?_
    exact inOneGo_last (settleCreation_last env maxNumRoundsPerRoom params roomID room rounds
      (.ok (newRound, fallbackUsed)) w)
  unfold createRound
  rw [Call.run_bind_assoc]
  rcases hfind : (findRoomByID env roomID).run w with ⟨⟨room, rounds⟩ | e | _, w₁⟩
  · rw [inOneGo_inl (Call.bind_ok hfind _), Call.bind_ok hfind, Call.run_bind_assoc]
    rcases hlimit : (checkRoundLimitExceeded env maxNumRoundsPerRoom room).run w₁ with
      ⟨(_ | _) | e | _, w₂⟩
    · rw [inOneGo_inl (Call.bind_ok hlimit _), Call.bind_ok hlimit, hservice]
      rw [if_neg Bool.false_ne_true, Call.run_bind_assoc]
      refine Call.run_bind_congr _ (fun r w => ?_) w₂
      cases r with
      | error e =>
        show (cleanUpRoom env roomID room rounds >>= fun _ => .fail e).run w =
          ((cleanUpRoom env roomID room rounds >>= fun _ => .fail e) >>= _).run w
        rw [Call.run_bind_assoc]
        rfl
      | ok result =>
        unfold settleCreation createPiece
        dsimp only
        cases env.fails .appendRound <;> rfl
    · rw [inOneGo_err (Call.bind_ok hlimit _), Call.bind_ok hlimit]
      rfl
    · rw [inOneGo_err (Call.bind_err hlimit _), Call.bind_err hlimit]
    · rw [inOneGo_panic (Call.bind_panic hlimit _), Call.bind_panic hlimit]
  · rw [inOneGo_err (Call.bind_err hfind _), Call.bind_err hfind]
  · rw [inOneGo_panic (Call.bind_panic hfind _), Call.bind_panic hfind]

end Pieces

/-! ## The number of open rounds -/

section Open

variable {roomID : RoomID} {w w' : World}

/-- The room has at most as many open rounds as before. -/
def OpensNone (roomID : RoomID) (w w' : World) : Prop :=
  w'.db.openRounds roomID ≤ w.db.openRounds roomID

/-- No step opens a round. -/
theorem OpensNone.refl (roomID : RoomID) (w : World) : OpensNone roomID w w := le_refl _

/-- Two steps that open no round. -/
theorem OpensNone.trans (roomID : RoomID) (w₁ w₂ w₃ : World) (h : OpensNone roomID w₁ w₂)
    (h' : OpensNone roomID w₂ w₃) : OpensNone roomID w₁ w₃ := le_trans h' h

/-- Taking rows away opens no round. -/
theorem Shrinks.opensNone (h : Shrinks w w') : OpensNone roomID w w' :=
  (h.rounds.filter _).length_le

/-- A new row is one more open round of its room. -/
theorem openRounds_addRound (db : DB) (env : Env) (duration : ℤ) (roomID : RoomID) :
    (db.addRound env duration roomID).openRounds roomID = db.openRounds roomID + 1 := by
  have hrows : (db.addRound env duration roomID).rounds.rows = db.rounds.rows ++
      [newRound env.now duration roomID (db.rounds.fresh env.roundHint)] := rfl
  have hopen : (newRound env.now duration roomID (db.rounds.fresh env.roundHint)).roomID = roomID ∧
      (newRound env.now duration roomID (db.rounds.fresh env.roundHint)).status ≠ .ended :=
    ⟨rfl, fun h => by cases h⟩
  unfold DB.openRounds
  rw [hrows, List.filter_append, List.length_append]
  rw [List.filter_cons_of_pos (by simpa using hopen)]
  rfl

/-- A new row of another room is none of this one. -/
theorem openRounds_addRound_of_ne (db : DB) (env : Env) (duration : ℤ) {roomID' : RoomID}
    (hne : roomID' ≠ roomID) :
    (db.addRound env duration roomID').openRounds roomID = db.openRounds roomID := by
  have hrows : (db.addRound env duration roomID').rounds.rows = db.rounds.rows ++
      [newRound env.now duration roomID' (db.rounds.fresh env.roundHint)] := rfl
  have hother : ¬ ((newRound env.now duration roomID' (db.rounds.fresh env.roundHint)).roomID = roomID ∧
      (newRound env.now duration roomID' (db.rounds.fresh env.roundHint)).status ≠ .ended) :=
    fun h => hne h.1
  unfold DB.openRounds
  rw [hrows, List.filter_append, List.filter_cons_of_neg (by simpa using hother)]
  rw [List.filter_nil, List.append_nil]

/-- A statement of the round service opens no round when the statement itself does not. -/
theorem within_orCleanUp {α : Type} {x : Service α} (room : Room) (rounds : List Round)
    (next : α → CreateStage) (hx : Call.Within (OpensNone roomID) x) :
    Call.Within (OpensNone roomID) (orCleanUp room rounds x next) := by
  refine Call.Within.bind (OpensNone.trans roomID) (Call.Within.attempt hx) fun r => ?_
  cases r with
  | error e => exact Call.Within.pure (OpensNone.refl roomID) _
  | ok a => exact Call.Within.pure (OpensNone.refl roomID) _

/-- No piece of a request opens a round, except the one that inserts the row. -/
theorem within_createPiece (env : Env) (maxNumRoundsPerRoom : ℤ) (params : RoundCreationParameters)
    (text : RoomID) (k : CreateStage) (hk : ∀ room rounds, k ≠ .admitted room rounds) :
    Call.Within (OpensNone roomID) (createPiece env maxNumRoundsPerRoom params text k) := by
  have refl := OpensNone.refl roomID
  have trans := OpensNone.trans roomID
  cases k with
  | called =>
    have hfind : Call.Keeps (fun w : World => w.db.openRounds roomID) (findRoomByID env text) :=
      keeps_findRoomByID env text
    exact Call.Within.bind trans (fun w => le_of_eq (hfind w)) fun (room, rounds) =>
      Call.Within.pure refl _
  | loaded room rounds =>
    refine Call.Within.bind trans (Call.Within.io refl _ _ (Call.Within.read refl _)) fun b => ?_
    exact Call.Within.ite _ (Call.Within.fail refl _) (Call.Within.pure refl _)
  | admitted room rounds => exact absurd rfl (hk room rounds)
  | inserted room rounds newRound =>
    refine within_orCleanUp room rounds _ fun w => ?_
    have hlooks : Looks (selectProblems env params) w (Selectable env params w.db) :=
      looks_selectProblems params
    rcases hlooks with ⟨-, a, hrun⟩ | ⟨-, e, hrun⟩
    · rw [hrun]
      exact refl w
    · rw [hrun]
      exact refl w
  -- The problems and the pointer are not rounds.
  | selected room rounds newRound problemSet fallbackUsed =>
    refine within_orCleanUp room rounds _ (Call.Within.io refl _ _ (Call.Within.write fun w => ?_))
    exact refl w
  | filled room rounds newRound fallbackUsed =>
    refine within_orCleanUp room rounds _ (Call.Within.io refl _ _ (Call.Within.write fun w => ?_))
    exact refl w
  | created newRound fallbackUsed =>
    exact Call.Within.bind trans (Call.Within.io refl _ _ (Call.Within.pure refl _)) fun _ =>
      Call.Within.pure refl _
  -- A clean-up deletes rounds, if it does anything.
  | failed room rounds e =>
    refine Call.Within.bind trans (fun w => ?_) fun _ => Call.Within.fail refl _
    obtain ⟨w', hrun, rfl | ⟨-, hshrinks⟩⟩ := cleanUpRoom_run env text room rounds w
    · rw [hrun]
      exact refl w'
    · rw [hrun]
      exact hshrinks.opensNone

/-- The insertion of a row opens one round of its room. -/
theorem openRounds_insert (env : Env) (maxNumRoundsPerRoom : ℤ) (params : RoundCreationParameters)
    (text : RoomID) (room : Room) (rounds : List Round) (w : World) :
    ((createPiece env maxNumRoundsPerRoom params text (.admitted room rounds)).run w).2.db.openRounds
        roomID =
      if env.fails .insertRound = false ∧ room.id = roomID then w.db.openRounds roomID + 1
      else w.db.openRounds roomID := by
  show ((orCleanUp room rounds (insertRound env params.duration room.id) _).run w).2.db.openRounds
    roomID = _
  unfold insertRound
  cases hinsert : env.fails .insertRound with
  | true =>
    rw [if_neg fun h => by cases h.1]
    rfl
  | false =>
    by_cases hid : room.id = roomID
    · rw [if_pos ⟨rfl, hid⟩, hid]
      exact openRounds_addRound w.db env params.duration roomID
    · rw [if_neg fun h => hid h.2]
      exact openRounds_addRound_of_ne w.db env params.duration hid

end Open

/-! ## Interleavings -/

section Interleaving

variable {maxNumRoundsPerRoom : ℤ} {params : ℕ → RoundCreationParameters} {texts : ℕ → RoomID}
  {roomID : RoomID}

/-- A piece keeps the limit exactly when it does not insert a row that the check would refuse by
now. -/
theorem withinLimit_step {c : Creations} (hlimit : WithinLimit maxNumRoundsPerRoom roomID c)
    (e : Env × ℕ) :
    WithinLimit maxNumRoundsPerRoom roomID (c.step maxNumRoundsPerRoom params texts e) ↔
      StillAdmitted maxNumRoundsPerRoom roomID c e := by
  unfold WithinLimit StillAdmitted at *
  cases hprogress : c.progress e.2 with
  | returned o =>
    have hsame : c.step maxNumRoundsPerRoom params texts e = c :=
      Concurrent.step_returned hprogress
    rw [hsame]
    refine iff_of_true hlimit ?_
    rintro _ _ ⟨⟩
  | running k =>
    have hshared : (c.step maxNumRoundsPerRoom params texts e).shared =
        ((createPiece e.1 maxNumRoundsPerRoom (params e.2) (texts e.2) k).run c.shared).2 :=
      Concurrent.shared_step hprogress
    rw [hshared]
    -- Only the piece that inserts the row can open a round.
    by_cases hk : ∃ room rounds, k = .admitted room rounds
    swap
    · have hother : ∀ room rounds, k ≠ .admitted room rounds := fun room rounds heq =>
        hk ⟨room, rounds, heq⟩
      have hle : _ ≤ c.shared.db.openRounds roomID :=
        within_createPiece e.1 maxNumRoundsPerRoom (params e.2) (texts e.2) k hother c.shared
      refine iff_of_true (by omega) ?_
      rintro room rounds ⟨⟩
      exact absurd rfl (hother room rounds)
    · obtain ⟨room, rounds, rfl⟩ := hk
      rw [openRounds_insert]
      by_cases hopens : e.1.fails .insertRound = false ∧ room.id = roomID
      · rw [if_pos hopens]
        constructor
        · intro hle _ _ _ _ _
          push_cast at hle
          omega
        · intro hadmitted
          have hlt := hadmitted room rounds rfl hopens.2 hopens.1
          push_cast
          omega
      · rw [if_neg hopens]
        refine iff_of_true hlimit ?_
        rintro _ _ ⟨⟩ hid hinsert
        exact absurd ⟨hinsert, hid⟩ hopens

/-- A request that runs alone leaves the state that `createRound` leaves. -/
theorem shared_createRound {c : Creations} {i : ℕ} (h : c.progress i = .running .called) (env : Env) :
    (run (Creations.step maxNumRoundsPerRoom params texts) c (List.replicate 7 (env, i))).shared =
      ((createRound env maxNumRoundsPerRoom (params i) (texts i)).run c.shared).2 := by
  unfold Creations.step
  rw [run_alone _ env 7 c .called h, createRound_inPieces]
  dsimp only
  rcases hrun : (createRound env maxNumRoundsPerRoom (params i) (texts i)).run c.shared with
    ⟨_ | _ | _, w⟩
  · rw [Call.bind_ok hrun]
    rfl
  · rw [Call.bind_err hrun]
  · rw [Call.bind_panic hrun]

end Interleaving

/-- In an interleaving of requests to create rounds, under whatever texts they name the room, the
number of its open rounds stays within the limit exactly when, whenever a row is inserted, the check
would still pass. -/
theorem withinLimit_iff (maxNumRoundsPerRoom : ℤ) (params : ℕ → RoundCreationParameters)
    (texts : ℕ → RoomID) (roomID : RoomID) (w : World) (es : List (Env × ℕ))
    (h : (w.db.openRounds roomID : ℤ) ≤ maxNumRoundsPerRoom) :
    Throughout (Creations.step maxNumRoundsPerRoom params texts)
        (WithinLimit maxNumRoundsPerRoom roomID) (.begin w) es ↔
      Along (Creations.step maxNumRoundsPerRoom params texts)
        (StillAdmitted maxNumRoundsPerRoom roomID) (.begin w) es := by
  have hstep : ∀ (c : Creations) (e : Env × ℕ), True → True →
      WithinLimit maxNumRoundsPerRoom roomID c →
        (WithinLimit maxNumRoundsPerRoom roomID (c.step maxNumRoundsPerRoom params texts e) ↔
          StillAdmitted maxNumRoundsPerRoom roomID c e) :=
    fun _ e _ _ hlimit => withinLimit_step hlimit e
  exact throughout_iff_along (fun _ _ _ _ => trivial) hstep trivial h
    (Along.of_forall fun _ _ => trivial)

/-- Two requests for the last round of a room, one after the other. -/
def oneThenOther : List (Env × ℕ) :=
  [(Env.faultless 10, 0), (Env.faultless 10, 0), (Env.faultless 10, 0), (Env.faultless 11, 1),
    (Env.faultless 11, 1)]

/-- Only the first one gets as far as to insert a row. -/
theorem withinLimit_oneThenOther :
    Throughout (Creations.step 2 (fun _ => handPicked [1]) fun _ => roomOne) (WithinLimit 2 roomOne)
      (.begin .ready) oneThenOther := by
  refine (withinLimit_iff 2 (fun _ => handPicked [1]) (fun _ => roomOne) roomOne .ready oneThenOther
    (by decide +kernel)).mpr ⟨?_, ?_, ?_, ?_, ?_, trivial⟩
  · rintro room rounds ⟨⟩
  · rintro room rounds ⟨⟩
  · intro _ _ _ _ _
    decide +kernel
  · rintro room rounds ⟨⟩
  · rintro room rounds ⟨⟩

/-- Two requests for the last round of a room, by turns. -/
def raceForLast : List (Env × ℕ) :=
  [(Env.faultless 10, 0), (Env.faultless 10, 1), (Env.faultless 11, 0), (Env.faultless 11, 1),
    (Env.faultless 12, 0), (Env.faultless 12, 1)]

/-- Both requests see one open round, and the room ends up with three where two are allowed. -/
theorem not_withinLimit :
    (World.ready.db.openRounds roomOne : ℤ) ≤ 2 ∧
      ¬ Throughout (Creations.step 2 (fun _ => handPicked [1]) fun _ => roomOne) (WithinLimit 2 roomOne)
        (.begin .ready) raceForLast := by
  refine ⟨by decide +kernel, fun h => ?_⟩
  let last := run (Creations.step 2 (fun _ => handPicked [1]) fun _ => roomOne) (.begin .ready) raceForLast
  have hopen : last.shared.db.openRounds roomOne = 3 := by decide +kernel
  have hle : (last.shared.db.openRounds roomOne : ℤ) ≤ 2 := h.last
  rw [hopen] at hle
  omega

end Bsg.Central
