import Bsg.Central.Starting
import Bsg.Foundations.Interleave

/-!
# Starting a round, piece by piece

All requests use one round service, and `InitiateRoundStart` sets its field `db` to a transaction
and sets it back later, so that the function which inserts a participant writes in the transaction.
`startPiece` cuts the start of a round at every statement that reads, sets or uses this field.

A transaction collects what is written through it (`pending`), and applies that when it is
committed. A transaction that is opened on a transaction is a savepoint in it. A start that runs
alone does what `initiateRoundStart` does (`initiateRoundStart_inPieces`).
-/

namespace Bsg.Central

open Bsg.Foundations

/-- A connection to the database: the root, or the transaction that a call began. -/
inductive Connection
  | root
  | tx (i : ℕ)
  deriving DecidableEq, Repr

/-- The round service that all calls share, and what it works on. -/
structure SharedService where
  world : World
  /-- `service.db` -/
  db : Connection
  /-- What was written in the transaction of a call. -/
  pending : ℕ → DB → DB
  /-- The transaction of a call was committed or rolled back. -/
  finished : ℕ → Bool
  /-- The writes to the database: the call, and the connection that it wrote through. -/
  writes : List (ℕ × Connection)

/-- A call of the shared service. -/
abbrev Shared (α : Type) := Call SharedService GoError α

/-- The error for a transaction that is over. -/
def txDone : GoError := .other "sql: transaction has already been committed or rolled back"

/-- What a connection sees of the database, unless it is a transaction that is over. -/
def SharedService.view (s : SharedService) : Connection → Option DB
  | .root => some s.world.db
  | .tx j => if s.finished j then none else some (s.pending j s.world.db)

/-- Reads the database through `service.db`. -/
def readThrough {α : Type} (f : DB → α) : Shared α := do
  match ← Call.read fun s => s.view s.db with
  | some db => pure (f db)
  | none => .fail txDone

/-- The state after a write through `service.db`. -/
def SharedService.written (s : SharedService) (f : DB → DB) : SharedService :=
  match s.db with
  | .root => { s with world := { s.world with db := f s.world.db } }
  | .tx j => { s with pending := Function.update s.pending j fun db => f (s.pending j db) }

/-- Call `i` writes to the database through `service.db`. -/
def writeThrough (i : ℕ) (f : DB → DB) : Shared Unit := do
  Call.write fun s => { s with writes := s.writes ++ [(i, s.db)] }
  match ← Call.read fun s => s.view s.db with
  | some _ => .write fun s => s.written f
  | none => .fail txDone

/-- What does not touch the database. -/
def onWorld {α : Type} (x : Service α) : Shared α where
  run s := ((x.run s.world).1, { s with world := (x.run s.world).2 })

/-- What `service.db.Transaction` opens: a transaction, or a savepoint in the one that `service.db`
is. -/
inductive Scope
  | own
  | savepoint (j : ℕ) (before : DB → DB)

/-- The connection that the function inside the transaction gets. -/
def Scope.connection (i : ℕ) : Scope → Connection
  | .own => .tx i
  | .savepoint j _ => .tx j

/-- Opens a transaction on `service.db`. -/
def openScope (env : Env) (i : ℕ) : Shared Scope :=
  .io (env.fails .beginParticipants) .io <| do
    match ← Call.read SharedService.db with
    | .root => do
      Call.write fun s => { s with pending := Function.update s.pending i id }
      pure .own
    | .tx j => do
      readThrough fun _ => ()
      let before ← Call.read fun s => s.pending j
      pure (.savepoint j before)

/-- Commits or rolls back, depending on whether the function inside the transaction failed. -/
def closeScope (env : Env) (i : ℕ) : Scope → Option GoError → Shared Unit
  | .own, none => do
    Call.write fun s => { s with finished := Function.update s.finished i true }
    Call.io (env.fails .commitParticipants) .io <| Call.write fun s =>
      { s with world := { s.world with db := s.pending i s.world.db } }
  | .own, some e => do
    Call.write fun s => { s with finished := Function.update s.finished i true }
    .fail e
  | .savepoint _ _, none => pure ()
  | .savepoint j before, some e => do
    Call.write fun s => { s with pending := Function.update s.pending j before }
    .fail e

/-- The points at which `InitiateRoundStart` may be interrupted; `d` is what it is going to
return. -/
inductive StartStage
  | called
  | loaded (problemSet : List Problem)
  | marked (d : ℤ × List Problem)
  | announced (d : ℤ × List Problem)
  | begun (d : ℤ × List Problem) (tx : Scope)
  | saved (d : ℤ × List Problem) (tx : Scope) (oldDBConnection : Connection)
  | enrolling (d : ℤ × List Problem) (tx : Scope) (oldDBConnection : Connection)
      (users : List (AuthID × ℕ))
  | ranking (d : ℤ × List Problem) (tx : Scope) (oldDBConnection : Connection)
      (user : AuthID × ℕ) (users : List (AuthID × ℕ))
  | leaving (d : ℤ × List Problem) (tx : Scope) (oldDBConnection : Connection)
      (error : Option GoError)
  | closing (d : ℤ × List Problem) (tx : Scope) (error : Option GoError)
  | closed (d : ℤ × List Problem)

/-- Goes on to a point, or to the end of the swap when the statement fails. -/
def orLeave {α : Type} (d : ℤ × List Problem) (tx : Scope) (oldDBConnection : Connection)
    (x : Shared α) (next : StartStage) : Shared (StartStage ⊕ (ℤ × List Problem)) := do
  match ← x.attempt with
  | .error e => pure (.inl (.leaving d tx oldDBConnection (some e)))
  | .ok _ => pure (.inl next)

/-- The pieces of `InitiateRoundStart`, as call `i`. -/
def startPiece (env : Env) (i : ℕ) (round : Round) (users : List AuthID) :
    StartStage → Shared (StartStage ⊕ (ℤ × List Problem))
  | .called =>
    if round.status ≠ .created then
      .fail (.pointer ⟨400, "Round is either started or ended"⟩)
    else do
      let problemSet ← Call.io (env.fails .findProblemSet) .io <| readThrough fun db =>
        db.problemSet env.problems round.id
      if problemSet = [] then
        .fail (.value ⟨400, "Cannot start round: no problems were generated. " ++
          "Try fewer constraints or different tags."⟩)
      else pure (.inl (.loaded problemSet))
  | .loaded problemSet => do
    Call.io (env.fails .updateRoundStatus) .io <| writeThrough i fun db =>
      db.startRound env.now round.id
    pure (.inl (.marked (env.now, problemSet)))
  | .marked d => do
    onWorld (logged (sendMessage (env.reply .roundStart)
      (.roundStart round.roomID (d.2.map Problem.slug) d.1 round.duration)))
    pure (.inl (.announced d))
  | .announced d => do
    let tx ← openScope env i
    pure (.inl (.begun d tx))
  | .begun d tx => do
    let oldDBConnection ← Call.read SharedService.db
    pure (.inl (.saved d tx oldDBConnection))
  | .saved d tx oldDBConnection => do
    Call.write fun s => { s with db := tx.connection i }
    pure (.inl (.enrolling d tx oldDBConnection users.zipIdx))
  | .enrolling d tx oldDBConnection [] => pure (.inl (.leaving d tx oldDBConnection none))
  | .enrolling d tx oldDBConnection (user :: rest) =>
    orLeave d tx oldDBConnection
      (Call.io (env.fails (.createParticipant user.2)) .io <| writeThrough i fun db =>
        db.addParticipant (env.participantHint user.2) user.1 round.id)
      (.ranking d tx oldDBConnection user rest)
  | .ranking d tx oldDBConnection user rest =>
    orLeave d tx oldDBConnection (onWorld (addLeaderboardMember env user.2 round.id user.1))
      (.enrolling d tx oldDBConnection rest)
  | .leaving d tx oldDBConnection error => do
    Call.write fun s => { s with db := oldDBConnection }
    pure (.inl (.closing d tx error))
  | .closing d tx error => do
    closeScope env i tx error
    pure (.inl (.closed d))
  | .closed d => do
    onWorld (scheduleRoundEnd env round)
    pure (.inr d)

/-! ## A start that runs alone -/

section Alone

variable {env : Env} {i : ℕ} {round : Round} {users : List AuthID}

/-- The world as it is in the transaction of a call. -/
def SharedService.inside (s : SharedService) (i : ℕ) : World :=
  { s.world with db := s.pending i s.world.db }

/-- The service as a call finds it between the two ends of its swap. -/
structure Inside (i : ℕ) (s : SharedService) : Prop where
  db : s.db = .tx i
  finished : s.finished i = false

/-- The error with which a call ended. -/
def errorOf : Outcome GoError Unit → Option GoError
  | .err e => some e
  | _ => none

/-- Inside a transaction a write goes to its own view of the database. -/
theorem writeThrough_inside {s : SharedService} (h : Inside i s) (f : DB → DB) :
    ∃ s', (writeThrough i f).run s = (.ok (), s') ∧ Inside i s' ∧
      s'.inside i = { s.inside i with db := f (s.inside i).db } ∧ s'.world = s.world := by
  -- The field holds this start's own transaction, so the write is pending in it.
  let s₁ : SharedService := { s with writes := s.writes ++ [(i, s.db)] }
  have hview : s₁.view s₁.db = some (s.pending i s.world.db) := by
    show s₁.view s.db = _
    rw [h.db]
    show (if s.finished i then none else some (s.pending i s.world.db)) = _
    rw [h.finished]
    rfl
  have hwritten : s₁.written f =
      { s₁ with pending := Function.update s.pending i fun db => f (s.pending i db) } := by
    unfold SharedService.written
    show (match s.db with | .root => _ | .tx j => _) = _
    rw [h.db]
  refine ⟨s₁.written f, ?_, ?_, ?_, ?_⟩
  · unfold writeThrough
    rw [Call.run_write_bind, Call.run_read_bind]
    show Call.run (match s₁.view s₁.db with | some _ => _ | none => _) s₁ = _
    rw [hview]
    rfl
  · rw [hwritten]
    exact ⟨h.db, h.finished⟩
  · rw [hwritten]
    unfold SharedService.inside
    dsimp only
    rw [Function.update_self]
  · rw [hwritten]

/-- The user is entered with a score of zero, unless the command fails. -/
theorem addLeaderboardMember_run (env : Env) (k roundID : ℕ) (userID : AuthID) (w : World) :
    (addLeaderboardMember env k roundID userID).run w =
      if env.fails (.zaddLeaderboard k) then (.err .io, w)
      else (.ok (), { w with redis := w.redis.addLeaderboardMember env.now roundID userID }) := by
  unfold addLeaderboardMember
  cases env.fails (.zaddLeaderboard k) <;> rfl

/-! ### The loop over the users -/

section Loop

variable {d : ℤ × List Problem} {tx : Scope} {old : Connection} {user : AuthID} {k : ℕ}
  {rest : List (AuthID × ℕ)} {s s' : SharedService} {α : Type} {x : Shared α} {next : StartStage}

/-- A piece that succeeds goes on. -/
theorem orLeave_ok {a : α} (h : x.run s = (.ok a, s')) :
    (orLeave d tx old x next).run s = (.ok (.inl next), s') := Call.attempt_ok h _

/-- A piece that fails leaves the transaction. -/
theorem orLeave_err {e : GoError} (h : x.run s = (.err e, s')) :
    (orLeave d tx old x next).run s = (.ok (.inl (.leaving d tx old (some e))), s') :=
  Call.attempt_err h _

/-- A call on the world runs on that of the service. -/
theorem onWorld_run {o : Outcome GoError α} {x : Service α} {w' : World}
    (h : x.run s.world = (o, w')) : (onWorld x).run s = (o, { s with world := w' }) := by
  unfold onWorld
  dsimp only
  rw [h]

/-- The user's row is inserted in the transaction, as `createRoundParticipant` inserts it. -/
theorem startPiece_enrolling (round : Round) (users : List AuthID) (d : ℤ × List Problem)
    (user : AuthID) (rest : List (AuthID × ℕ)) (h : Inside i s)
    (hcreate : env.fails (.createParticipant k) = false) :
    ∃ s₁, (startPiece env i round users (.enrolling d tx old ((user, k) :: rest))).run s =
        (.ok (.inl (.ranking d tx old (user, k) rest)), s₁) ∧
      Inside i s₁ ∧ s₁.world = s.world ∧
      (createRoundParticipant env k user round.id).run (s.inside i) = (.ok (), s₁.inside i) := by
  obtain ⟨s₁, hwrite, h₁, hinside, hworld⟩ := writeThrough_inside h fun db =>
    db.addParticipant (env.participantHint k) user round.id
  refine ⟨s₁, ?_, h₁, hworld, ?_⟩
  · rw [startPiece]
    refine orLeave_ok (a := ()) ?_
    rw [hcreate, Call.io_false]
    exact hwrite
  · unfold createRoundParticipant
    rw [hcreate, Call.io_false, hinside]
    rfl

/-- When the participant cannot be stored, the transaction is left. -/
theorem startPiece_enrolling_fails (hcreate : env.fails (.createParticipant k) = true) :
    (startPiece env i round users (.enrolling d tx old ((user, k) :: rest))).run s =
      (.ok (.inl (.leaving d tx old (some .io))), s) := by
  rw [startPiece]
  refine orLeave_err ?_
  rw [hcreate]
  rfl

/-- The user's entry is written as `addLeaderboardMember` writes it. -/
theorem startPiece_ranking {w' : World}
    (h : (addLeaderboardMember env k round.id user).run s.world = (.ok (), w')) :
    (startPiece env i round users (.ranking d tx old (user, k) rest)).run s =
      (.ok (.inl (.enrolling d tx old rest)), { s with world := w' }) :=
  orLeave_ok (onWorld_run h)

/-- So it is when the user cannot be entered on the leaderboard. -/
theorem startPiece_ranking_fails
    (h : (addLeaderboardMember env k round.id user).run s.world = (.err .io, s.world)) :
    (startPiece env i round users (.ranking d tx old (user, k) rest)).run s =
      (.ok (.inl (.leaving d tx old (some .io))), s) :=
  orLeave_err (onWorld_run h)

end Loop

/-- The loop over the users, piece by piece: what it does inside the transaction is what the loop of
`initiateRoundStart` does, and the world outside keeps its database. -/
theorem enrolling_inPieces (env : Env) (round : Round) (users : List AuthID) (d : ℤ × List Problem)
    (n : ℕ) : ∀ (l : List (AuthID × ℕ)) (s : SharedService), Inside i s → ∃ m s', Inside i s' ∧
      s'.world.db = s.world.db ∧
      s'.inside i = ((Call.forEach l (enrolParticipant env round.id)).run (s.inside i)).2 ∧
      ((Call.forEach l (enrolParticipant env round.id)).run (s.inside i)).1 ≠ .panic ∧
      (inOneGo (startPiece env i round users) (2 * l.length + 1 + n)
          (.enrolling d .own .root l)).run s =
        (inOneGo (startPiece env i round users) (n + m) (.leaving d .own .root
          (errorOf ((Call.forEach l (enrolParticipant env round.id)).run (s.inside i)).1))).run s'
  -- Nobody is left to be enrolled.
  | [], s, h => by
    refine ⟨0, s, h, rfl, rfl, by simp, ?_⟩
    have hfuel : 2 * ([] : List (AuthID × ℕ)).length + 1 + n = n + 1 := by simp; omega
    rw [hfuel]
    exact inOneGo_inl rfl
  -- Two pieces for the first user: his row, and his entry in the sorted set.
  | (user, k) :: rest, s, h => by
    have hfuel : 2 * ((user, k) :: rest).length + 1 + n = (2 * rest.length + 1 + n) + 1 + 1 := by
      rw [List.length_cons]
      omega
    rw [hfuel, Call.forEach_cons]
    cases hcreate : env.fails (.createParticipant k) with
    | true =>
      have henrol : (enrolParticipant env round.id (user, k)).run (s.inside i) =
          (.err .io, s.inside i) := by
        unfold enrolParticipant createRoundParticipant
        rw [hcreate]
        rfl
      rw [Call.bind_err henrol, inOneGo_inl (startPiece_enrolling_fails hcreate)]
      refine ⟨2 * rest.length + 2, s, h, rfl, rfl, by simp, ?_⟩
      congr 2
      omega
    | false =>
      obtain ⟨s₁, hpiece, h₁, hworld, hcreated⟩ :=
        startPiece_enrolling round users d user rest h hcreate
      rw [inOneGo_inl hpiece]
      have hadd := addLeaderboardMember_run env k round.id user
      cases hrank : env.fails (.zaddLeaderboard k) with
      | true =>
        rw [hrank] at hadd
        have henrol : (enrolParticipant env round.id (user, k)).run (s.inside i) =
            (.err .io, s₁.inside i) := (Call.bind_ok hcreated _).trans (hadd _)
        rw [Call.bind_err henrol, inOneGo_inl (startPiece_ranking_fails (hadd _))]
        refine ⟨2 * rest.length + 1, s₁, h₁, by rw [hworld], rfl, by simp, ?_⟩
        congr 2
        omega
      | false =>
        rw [hrank] at hadd
        -- Both went through, and the rest follows from the state after them.
        let s₂ : SharedService := { s₁ with
          world := { s₁.world with
            redis := s₁.world.redis.addLeaderboardMember env.now round.id user } }
        have henrol : (enrolParticipant env round.id (user, k)).run (s.inside i) =
            (.ok (), s₂.inside i) := (Call.bind_ok hcreated _).trans (hadd _)
        obtain ⟨m, s', h', hdb, hinside, hcalm, hrest⟩ :=
          enrolling_inPieces env round users d n rest s₂ ⟨h₁.db, h₁.finished⟩
        rw [Call.bind_ok henrol, inOneGo_inl (startPiece_ranking (hadd _))]
        refine ⟨m, s', h', ?_, hinside, hcalm, hrest⟩
        rw [hdb]
        show s₁.world.db = _
        rw [hworld]

/-! ### The transaction around it -/

/-- The pieces from `s` on end as the call does from the world of `s`, with the service at the
root. -/
def EndsLike {β : Type} (x : Shared β) (y : Service β) (s : SharedService) : Prop :=
  ∃ s', x.run s = ((y.run s.world).1, s') ∧ s'.db = .root ∧ s'.world = (y.run s.world).2

/-- A call that fails like the other ends like it, whatever would have come next. -/
theorem EndsLike.of_err {β γ : Type} {x : Shared β} {y : Service γ} {f : γ → Service β}
    {s s' : SharedService} {e : GoError} (hx : x.run s = (.err e, s')) (hroot : s'.db = .root)
    (hy : y.run s.world = (.err e, s'.world)) : EndsLike x (y >>= f) s := by
  refine ⟨s', ?_, hroot, ?_⟩
  · rw [hx, Call.bind_err hy]
  · rw [Call.bind_err hy]

/-- How the enrolment ends, given how its loop does. -/
theorem enrolParticipants_of_loop {roundID : ℕ} {w w' : World} {o : Outcome GoError Unit}
    (hbegin : env.fails .beginParticipants = false)
    (hloop : (Call.forEach users.zipIdx (enrolParticipant env roundID)).run w = (o, w')) :
    (∀ e, o = .err e → (enrolParticipants env roundID users).run w = (.err e, rollback w w')) ∧
    (o = .ok () → (enrolParticipants env roundID users).run w =
      if env.fails .commitParticipants then (.err .io, rollback w w') else (.ok (), w')) := by
  have hbody : (Call.io (env.fails .beginParticipants) .io (pure ()) : Service Unit).run w =
      (.ok (), w) := by
    rw [hbegin]
    rfl
  have hall : (enrolAll env roundID users).run w =
      ((Call.forEach users.zipIdx (enrolParticipant env roundID)) >>= fun _ =>
        Call.io (env.fails .commitParticipants) .io (pure ())).run w := Call.bind_ok hbody _
  constructor
  · rintro e rfl
    unfold enrolParticipants
    rw [Call.run_transaction, hall, Call.bind_err hloop]
  · rintro rfl
    unfold enrolParticipants
    rw [Call.run_transaction, hall, Call.bind_ok hloop]
    cases env.fails .commitParticipants <;> rfl

/-- The transaction is opened on the root, and the service is set to it. -/
theorem opening_inPieces (env : Env) (i : ℕ) (round : Round) (users : List AuthID)
    (d : ℤ × List Problem) {s : SharedService} (hroot : s.db = .root)
    (hfinished : s.finished i = false) (hbegin : env.fails .beginParticipants = false) :
    ∃ s', Inside i s' ∧ s'.world = s.world ∧ s'.inside i = s.world ∧
      ∀ n, (inOneGo (startPiece env i round users) (n + 3) (.announced d)).run s =
        (inOneGo (startPiece env i round users) n (.enrolling d .own .root users.zipIdx)).run s' := by
  -- After the transaction has begun, and after the field was swapped.
  let s₁ : SharedService := { s with pending := Function.update s.pending i id }
  let s₂ : SharedService := { s₁ with db := .tx i }
  have hannounced : (startPiece env i round users (.announced d)).run s =
      (.ok (.inl (.begun d .own)), s₁) := by
    unfold startPiece openScope
    dsimp only
    rw [hbegin, Call.io_false, Call.run_bind_assoc, Call.run_read_bind, hroot]
    rfl
  have hbegun : (startPiece env i round users (.begun d .own)).run s₁ =
      (.ok (.inl (.saved d .own .root)), s₁) := by
    rw [← hroot]
    rfl
  have hsaved : (startPiece env i round users (.saved d .own .root)).run s₁ =
      (.ok (.inl (.enrolling d .own .root users.zipIdx)), s₂) := rfl
  refine ⟨s₂, ⟨rfl, hfinished⟩, rfl, ?_, fun n => ?_⟩
  · show World.mk (Function.update s.pending i id i s.world.db) _ _ _ _ = _
    rw [Function.update_self]
    rfl
  · rw [inOneGo_inl hannounced, inOneGo_inl hbegun, inOneGo_inl hsaved]

/-- The service is set back to the root, and the transaction is rolled back. -/
theorem leaving_inPieces_error (env : Env) (i : ℕ) (round : Round) (users : List AuthID)
    (d : ℤ × List Problem) (e : GoError) (n : ℕ) (s : SharedService) :
    ∃ s', s'.db = .root ∧ s'.world = s.world ∧
      (inOneGo (startPiece env i round users) (n + 2) (.leaving d .own .root (some e))).run s =
        (.err e, s') :=
  ⟨{ s with db := .root, finished := Function.update s.finished i true }, rfl, rfl,
    (inOneGo_inl rfl).trans (inOneGo_err rfl)⟩

/-- The service is set back to the root, and the transaction is committed. -/
theorem leaving_inPieces (env : Env) (i : ℕ) (round : Round) (users : List AuthID)
    (d : ℤ × List Problem) (n : ℕ) (s : SharedService) :
    ∃ s', s'.db = .root ∧
      if env.fails .commitParticipants then
        s'.world = s.world ∧
          (inOneGo (startPiece env i round users) (n + 2) (.leaving d .own .root none)).run s =
            (.err .io, s')
      else
        s'.world = s.inside i ∧
          (inOneGo (startPiece env i round users) (n + 2) (.leaving d .own .root none)).run s =
            (inOneGo (startPiece env i round users) n (.closed d)).run s' := by
  -- The service is set back first, and then the transaction is closed.
  let s₁ : SharedService := { s with db := .root }
  let s₂ : SharedService := { s₁ with finished := Function.update s.finished i true }
  have hleaving : (startPiece env i round users (.leaving d .own .root none)).run s =
      (.ok (.inl (.closing d .own none)), s₁) := rfl
  cases hcommit : env.fails .commitParticipants with
  | true =>
    have hclosing : (startPiece env i round users (.closing d .own none)).run s₁ =
        (.err .io, s₂) := by
      unfold startPiece closeScope
      dsimp only
      rw [hcommit]
      rfl
    exact ⟨s₂, rfl, rfl, (inOneGo_inl hleaving).trans (inOneGo_err hclosing)⟩
  | false =>
    let s₃ : SharedService := { s₂ with world := s.inside i }
    have hclosing : (startPiece env i round users (.closing d .own none)).run s₁ =
        (.ok (.inl (.closed d)), s₃) := by
      unfold startPiece closeScope
      dsimp only
      rw [hcommit]
      rfl
    exact ⟨s₃, rfl, rfl, (inOneGo_inl hleaving).trans (inOneGo_inl hclosing)⟩

/-- The last piece schedules the end of the round. -/
theorem closed_inPieces (env : Env) (i : ℕ) (round : Round) (users : List AuthID)
    (d : ℤ × List Problem) (n : ℕ) {s : SharedService} (hroot : s.db = .root) :
    EndsLike (inOneGo (startPiece env i round users) (n + 1) (.closed d))
      (scheduleRoundEnd env round >>= fun _ => pure (.inr d)) s := by
  by_cases hschedule : Schedulable env round
  · have hend := scheduleRoundEnd_run hschedule s.world
    refine ⟨{ s with world := s.world.scheduled env round }, ?_, hroot, ?_⟩
    · rw [inOneGo_inr (Call.bind_ok (onWorld_run hend) _), Call.bind_ok hend]
      rfl
    · rw [Call.bind_ok hend]
      rfl
  · obtain ⟨e, hend⟩ := scheduleRoundEnd_fails hschedule s.world
    exact .of_err (inOneGo_err (Call.bind_err (onWorld_run hend) _)) hroot hend

/-- From the opening of the transaction on. -/
theorem announced_inPieces (env : Env) (i : ℕ) (round : Round) (users : List AuthID)
    (d : ℤ × List Problem) {s : SharedService} (hroot : s.db = .root)
    (hfinished : s.finished i = false) :
    EndsLike (inOneGo (startPiece env i round users) (2 * users.length + 7) (.announced d))
      (do
        enrolParticipants env round.id users
        scheduleRoundEnd env round
        pure (.inr d)) s := by
  cases hbegin : env.fails .beginParticipants with
  | true =>
    have hpiece : (startPiece env i round users (.announced d)).run s = (.err .io, s) := by
      unfold startPiece openScope
      dsimp only
      rw [hbegin]
      rfl
    refine .of_err (inOneGo_err hpiece) hroot ?_
    unfold enrolParticipants enrolAll
    rw [hbegin]
    rfl
  | false =>
    obtain ⟨s₁, h₁, hworld, hinside₁, hopening⟩ :=
      opening_inPieces env i round users d hroot hfinished hbegin
    obtain ⟨m, s', -, hdb, hinside, hcalm, hloop⟩ :=
      enrolling_inPieces env round users d 3 users.zipIdx s₁ h₁
    rw [List.length_zipIdx] at hloop
    rw [hinside₁] at hinside hcalm hloop
    have hfuel : 3 + m = m + 1 + 2 := by omega
    rw [hfuel] at hloop
    have hpieces := (hopening (2 * users.length + 1 + 3)).trans hloop
    -- What the transaction leaves outside is what a rollback leaves.
    have hrollback : rollback s.world (s'.inside i) = s'.world := by
      show World.mk s.world.db _ _ _ _ = _
      rw [← hworld, show s₁.world.db = s'.world.db from hdb.symm]
      rfl
    rcases hrun : (Call.forEach users.zipIdx (enrolParticipant env round.id)).run s.world with
      ⟨_ | e | _, w'⟩
    · rw [hrun] at hinside hpieces
      obtain rfl : s'.inside i = w' := hinside
      have henrol := (enrolParticipants_of_loop hbegin hrun).2 rfl
      obtain ⟨s₂, hroot₂, hleaving⟩ := leaving_inPieces env i round users d (m + 1) s'
      cases hcommit : env.fails .commitParticipants with
      | true =>
        rw [hcommit, if_pos rfl] at henrol hleaving
        rw [hrollback, ← hleaving.1] at henrol
        exact .of_err (hpieces.trans hleaving.2) hroot₂ henrol
      | false =>
        rw [hcommit, if_neg Bool.false_ne_true] at henrol hleaving
        obtain ⟨s₃, hrun₃, hroot₃, hworld₃⟩ := closed_inPieces env i round users d m hroot₂
        rw [← hleaving.1] at henrol
        refine ⟨s₃, ?_, hroot₃, ?_⟩
        · rw [Call.bind_ok henrol, ← hrun₃, ← hleaving.2]
          exact hpieces
        · rw [Call.bind_ok henrol]
          exact hworld₃
    · rw [hrun] at hinside hpieces
      obtain rfl : s'.inside i = w' := hinside
      have henrol := (enrolParticipants_of_loop hbegin hrun).1 e rfl
      obtain ⟨s₂, hroot₂, hworld₂, hleaving⟩ :=
        leaving_inPieces_error env i round users d e (m + 1) s'
      rw [hrollback, ← hworld₂] at henrol
      exact .of_err (hpieces.trans hleaving) hroot₂ henrol
    · rw [hrun] at hcalm
      exact absurd rfl hcalm

/-- Outside of a transaction a write goes to the database. -/
theorem writeThrough_root {s : SharedService} (hroot : s.db = .root) (i : ℕ) (f : DB → DB) :
    (writeThrough i f).run s = (.ok (),
      { s with
        writes := s.writes ++ [(i, s.db)]
        world := { s.world with db := f s.world.db } }) := by
  obtain ⟨world, db, pending, finished, writes⟩ := s
  cases hroot
  rfl

/-- Outside of a transaction a read sees the database. -/
theorem readThrough_root {α : Type} {s : SharedService} (hroot : s.db = .root) (f : DB → α) :
    (readThrough f).run s = (.ok (f s.world.db), s) := by
  obtain ⟨world, db, pending, finished, writes⟩ := s
  cases hroot
  rfl

/-- A start that is refused changes nothing, in one piece or in several. -/
theorem refused_inPieces (env : Env) (i : ℕ) (round : Round) (users : List AuthID) (n : ℕ)
    {s : SharedService} (hroot : s.db = .root) (h : ¬ Startable env round s.world) :
    EndsLike (inOneGo (startPiece env i round users) (n + 2) .called)
      (initiateRoundStart env round users >>= fun d => pure (.inr d)) s := by
  have hstop : ∀ e, (inOneGo (startPiece env i round users) (n + 2) .called).run s = (.err e, s) →
      (markRoundStarted env round).run s.world = (.err e, s.world) →
      EndsLike (inOneGo (startPiece env i round users) (n + 2) .called)
        (initiateRoundStart env round users >>= fun d => pure (.inr d)) s := by
    intro e hpieces hmark
    exact .of_err hpieces hroot (Call.bind_err hmark _)
  -- The four checks of a start, in the order of the source.
  by_cases hcreated : round.status = .created
  · cases hfind : env.fails .findProblemSet with
    | true =>
      refine hstop .io (inOneGo_err ?_) ?_
      · unfold startPiece
        dsimp only
        rw [if_neg (not_not_intro hcreated), hfind]
        rfl
      · unfold markRoundStarted
        rw [if_neg (not_not_intro hcreated), hfind]
        rfl
    | false =>
      by_cases hproblems : s.world.db.problemSet env.problems round.id = []
      · refine hstop (.value ⟨400, "Cannot start round: no problems were generated. " ++
          "Try fewer constraints or different tags."⟩) (inOneGo_err ?_) ?_
        · unfold startPiece
          dsimp only
          rw [if_neg (not_not_intro hcreated), hfind, Call.io_false,
            Call.bind_ok (readThrough_root hroot _), if_pos hproblems]
          rfl
        · unfold markRoundStarted
          rw [if_neg (not_not_intro hcreated), hfind, Call.io_false, Call.run_read_bind,
            if_pos hproblems]
          rfl
      · cases hupdate : env.fails .updateRoundStatus with
        | false => exact absurd ⟨hcreated, hfind, hproblems, hupdate⟩ h
        | true =>
          have hcalled : (startPiece env i round users .called).run s =
              (.ok (.inl (.loaded (s.world.db.problemSet env.problems round.id))), s) := by
            unfold startPiece
            dsimp only
            rw [if_neg (not_not_intro hcreated), hfind, Call.io_false,
              Call.bind_ok (readThrough_root hroot _), if_neg hproblems]
            rfl
          refine hstop .io ((inOneGo_inl hcalled).trans (inOneGo_err ?_)) ?_
          · unfold startPiece
            dsimp only
            rw [hupdate]
            rfl
          · unfold markRoundStarted
            rw [if_neg (not_not_intro hcreated), hfind, Call.io_false, Call.run_read_bind,
              if_neg hproblems, hupdate]
            rfl
  · refine hstop (.pointer ⟨400, "Round is either started or ended"⟩) (inOneGo_err ?_) ?_
    · unfold startPiece
      dsimp only
      rw [if_pos hcreated]
      rfl
    · unfold markRoundStarted
      rw [if_pos hcreated]
      rfl

/-- A start that is not interrupted does what `initiateRoundStart` does. -/
theorem initiateRoundStart_inPieces (env : Env) (i : ℕ) (round : Round) (users : List AuthID)
    {s : SharedService} (hroot : s.db = .root) (hfinished : s.finished i = false) :
    EndsLike (inOneGo (startPiece env i round users) (2 * users.length + 10) .called)
      (initiateRoundStart env round users >>= fun d => pure (.inr d)) s := by
  by_cases hstart : Startable env round s.world
  swap
  · exact refused_inPieces env i round users _ hroot hstart
  have hmark := markRoundStarted_run hstart
  obtain ⟨hcreated, hfind, hproblems, hupdate⟩ := hstart
  let problemSet := s.world.db.problemSet env.problems round.id
  -- The three pieces before the transaction: the problems, the row, and the message.
  have hcalled : (startPiece env i round users .called).run s =
      (.ok (.inl (.loaded problemSet)), s) := by
    unfold startPiece
    dsimp only
    rw [if_neg (not_not_intro hcreated), hfind, Call.io_false,
      Call.bind_ok (readThrough_root hroot _), if_neg hproblems]
    rfl
  let s₁ : SharedService :=
    { s with
      writes := s.writes ++ [(i, s.db)]
      world := { s.world with db := s.world.db.startRound env.now round.id } }
  have hloaded : (startPiece env i round users (.loaded problemSet)).run s =
      (.ok (.inl (.marked (env.now, problemSet))), s₁) := by
    unfold startPiece
    dsimp only
    rw [hupdate, Call.io_false, Call.bind_ok (writeThrough_root hroot i _)]
    rfl
  let s₂ : SharedService := { s₁ with world := s.world.started env round }
  have hmarked : (startPiece env i round users (.marked (env.now, problemSet))).run s₁ =
      (.ok (.inl (.announced (env.now, problemSet))), s₂) := by
    have htold := logged_sendMessage_run (env.reply .roundStart)
      (roundStartRequest env round s.world) s₁.world
    exact Call.bind_ok (onWorld_run htold) _
  -- From the message on it is the transaction and the schedule.
  obtain ⟨s', hrun, hdb, hworld⟩ := announced_inPieces env i round users (env.now, problemSet)
    (s := s₂) hroot hfinished
  have hwhole : (initiateRoundStart env round users >>= fun d => pure (.inr d)).run s.world =
      ((do
        enrolParticipants env round.id users
        scheduleRoundEnd env round
        pure (.inr (env.now, problemSet)) : Service (StartStage ⊕ (ℤ × List Problem)))).run
          s₂.world := by
    unfold initiateRoundStart
    rw [Call.run_bind_assoc, Call.bind_ok hmark, Call.run_bind_assoc]
    refine Call.run_bind_congr _ (fun _ w => ?_) _
    rw [Call.run_bind_assoc]
    rfl
  rw [EndsLike, inOneGo_inl hcalled, inOneGo_inl hloaded, inOneGo_inl hmarked, hwhole]
  exact ⟨s', hrun, hdb, hworld⟩

end Alone

end Bsg.Central
