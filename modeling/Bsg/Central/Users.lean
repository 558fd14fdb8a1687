import Bsg.Central.Redelivery
import Bsg.Foundations.Interleave

/-!
# Users

`services/user.go`, and how the table of users is kept: a login creates or updates the row of its
auth id, and a verdict that is processed makes a row for the author of the submission if there is
none. Each of them looks for the row in one statement and inserts one in another, without a
constraint on the auth ids.

`UniqueAuth` says that no auth id has two rows. `uniqueAuth_iff` says that it holds throughout an
interleaving exactly when, whenever a row is inserted, there is still none with its auth id. Where
it holds, the rows that the different lookups find are the same (`findUserByAuthID_eq`).

The pieces of a call are those of the functions of the code (`userCall_inPieces`).
-/

namespace Bsg.Central

open Bsg.Foundations

/-- The environment of a call about users. -/
structure UserEnv extends EgressEnv where
  /-- The UPDATE statement fails. -/
  updateUser : Bool
  /-- The order of users in a query without an ORDER BY. -/
  users : Arrangement User

/-- `UserModifiableData` -/
structure UserModifiableData where
  firstName : GoText
  lastName : GoText
  handle : GoText
  email : GoText
  photoURL : GoText

/-- A column after `Updates`, which leaves out zero values. -/
def updated (old new : GoText) : GoText := if new = [] then old else new

/-- A row after `Updates`. -/
def UserModifiableData.apply (userData : UserModifiableData) (user : User) : User :=
  { user with
    firstName := updated user.firstName userData.firstName
    lastName := updated user.lastName userData.lastName
    handle := updated user.handle userData.handle
    email := updated user.email userData.email
    photoURL := updated user.photoURL userData.photoURL }

/-- New data leaves the key. -/
theorem UserModifiableData.id_apply (userData : UserModifiableData) (user : User) :
    Row.id (userData.apply user) = Row.id user := rfl

/-- The row of a new user, without a key. -/
def newUser (authID : AuthID) (userData : UserModifiableData) : User where
  id := 0
  firstName := userData.firstName
  lastName := userData.lastName
  handle := userData.handle
  email := userData.email
  authID := authID
  photoURL := userData.photoURL

/-- The row with a key. -/
def User.withKey (user : User) (id : ℕ) : User := { user with id := id }

/-- A user has the key that he is given. -/
theorem User.id_withKey (user : User) (id : ℕ) : Row.id (user.withKey id) = id := rfl

section Service

variable (env : UserEnv) (authID : AuthID) (userData : UserModifiableData)

/-- `FindUserByAuthID`: any row with the auth id. A struct condition leaves an empty one out. -/
def findUserByAuthID : Service (Option User) :=
  .io (env.fails .findUser) .io <| Call.read fun w =>
    (env.users.order w.db.users.rows).find? fun u => decide (authID = [] ∨ u.authID = authID)

/-- The UPDATE statement for a row that was found. -/
def updateFound (existing : User) : Service User :=
  .io env.updateUser .io <| do
    writeDB fun db =>
      { db with users := db.users.modify existing.id userData.apply userData.id_apply }
    pure (userData.apply existing)

/-- The INSERT statement. -/
def insertUser (user : User) : Service User :=
  .io (env.fails .createUser) .io <| do
    let id ← Call.read fun w => w.db.users.fresh env.userHint
    writeDB fun db =>
      { db with users := db.users.insert env.userHint user.withKey user.id_withKey }
    pure (user.withKey id)

/-- `CreateUser` -/
def createUser : Service User := do
  match ← findUserByAuthID env authID with
  | some existing => updateFound env userData existing
  | none => insertUser env (newUser authID userData)

/-- `UpdateUserData` -/
def updateUserData : Service (Option User) := do
  match ← findUserByAuthID env authID with
  | none => pure none
  | some searchedUser => do
    let user ← updateFound env userData searchedUser
    pure (some user)

/-- The step of `ProcessSubmissionData` that finds or makes the user of a submission. -/
def findOrCreateAuthor : Service User :=
  match authID.prefix? 8 with
  | none => .crash
  | some idPrefix => firstOrCreateUser env.toEgressEnv authID idPrefix

end Service

/-! ## In pieces -/

/-- A call about the user with an auth id. -/
inductive UserCall
  | create (authID : AuthID) (userData : UserModifiableData)
  | update (authID : AuthID) (userData : UserModifiableData)
  | author (authID : AuthID)

/-- A call from its beginning to its end. -/
def UserCall.whole (env : UserEnv) : UserCall → Service (Option User)
  | .create authID userData => do
    let user ← createUser env authID userData
    pure (some user)
  | .update authID userData => updateUserData env authID userData
  | .author authID => do
    let user ← findOrCreateAuthor env authID
    pure (some user)

/-- The points at which a call may be interrupted: it has found a row that it will update, or none,
so that it will insert one. -/
inductive UserStage
  | called
  | found (existing : User) (userData : UserModifiableData)
  | absent (user : User)

/-- The first piece of a call: its lookup. -/
def UserCall.lookUp (env : UserEnv) : UserCall → Service (UserStage ⊕ Option User)
  | .create authID userData => do
    match ← findUserByAuthID env authID with
    | some existing => pure (.inl (.found existing userData))
    | none => pure (.inl (.absent (newUser authID userData)))
  | .update authID userData => do
    match ← findUserByAuthID env authID with
    | none => pure (.inr none)
    | some searchedUser => pure (.inl (.found searchedUser userData))
  | .author authID =>
    match authID.prefix? 8 with
    | none => .crash
    | some idPrefix => do
      let found ← .io (env.fails .findUser) .io <| Call.read fun w => w.db.userByAuthID authID
      match found with
      | some user => pure (.inr (some user))
      | none => pure (.inl (.absent (placeholderUser authID idPrefix 0)))

/-- The pieces of a call: its statements. -/
def userPiece (env : UserEnv) (call : UserCall) : UserStage → Service (UserStage ⊕ Option User)
  | .called => call.lookUp env
  | .found existing userData => do
    let user ← updateFound env userData existing
    pure (.inr (some user))
  | .absent user => do
    let user ← insertUser env user
    pure (.inr (some user))

/-- A call that is not interrupted does what the function of the code does. -/
theorem userCall_inPieces (env : UserEnv) (call : UserCall) (w : World) :
    (inOneGo (userPiece env call) 2 .called).run w =
      (call.whole env >>= fun user => pure (.inr user)).run w := by
  -- Every call begins with a lookup, and what that finds decides whether there is a second piece.
  cases call with
  | create authID userData =>
    show _ = ((createUser env authID userData >>= _) >>= _).run w
    rw [Call.run_bind_assoc, createUser, Call.run_bind_assoc]
    rcases hfind : (findUserByAuthID env authID).run w with ⟨(_ | existing) | e | _, w'⟩
    · rw [inOneGo_inl (Call.bind_ok hfind _), Call.bind_ok hfind]
      exact inOneGo_return (fun _ => rfl) w'
    · rw [inOneGo_inl (Call.bind_ok hfind _), Call.bind_ok hfind]
      exact inOneGo_return (fun _ => rfl) w'
    · rw [inOneGo_err (Call.bind_err hfind _), Call.bind_err hfind]
    · rw [inOneGo_panic (Call.bind_panic hfind _), Call.bind_panic hfind]
  | update authID userData =>
    show _ = (updateUserData env authID userData >>= _).run w
    rw [updateUserData, Call.run_bind_assoc]
    rcases hfind : (findUserByAuthID env authID).run w with ⟨(_ | existing) | e | _, w'⟩
    · rw [inOneGo_inr (Call.bind_ok hfind _), Call.bind_ok hfind]
      rfl
    · rw [inOneGo_inl (Call.bind_ok hfind _), Call.bind_ok hfind, Call.run_bind_assoc]
      exact inOneGo_return (fun _ => rfl) w'
    · rw [inOneGo_err (Call.bind_err hfind _), Call.bind_err hfind]
    · rw [inOneGo_panic (Call.bind_panic hfind _), Call.bind_panic hfind]
  | author authID =>
    show _ = ((findOrCreateAuthor env authID >>= _) >>= _).run w
    rw [Call.run_bind_assoc, findOrCreateAuthor]
    cases hprefix : authID.prefix? 8 with
    | none =>
      have hcrash : (UserCall.author authID).lookUp env = .crash := by
        rw [UserCall.lookUp, hprefix]
      exact inOneGo_panic (congrArg (fun x => x.run w) hcrash)
    | some idPrefix =>
      have hlook : (UserCall.author authID).lookUp env = (Call.io (env.fails .findUser) .io
          (Call.read fun w => w.db.userByAuthID authID) >>= fun found => match found with
            | some user => pure (.inr (some user))
            | none => pure (.inl (.absent (placeholderUser authID idPrefix 0)))) := by
        rw [UserCall.lookUp, hprefix]
      dsimp only
      rw [firstOrCreateUser, Call.run_bind_assoc]
      rcases hfind : (Call.io (env.fails .findUser) GoError.io
        (Call.read fun w : World => w.db.userByAuthID authID)).run w with ⟨(_ | user) | e | _, w'⟩
      · rw [inOneGo_inl (by rw [userPiece, hlook, Call.bind_ok hfind]; rfl), Call.bind_ok hfind]
        exact inOneGo_return (fun _ => rfl) w'
      · rw [inOneGo_inr (by rw [userPiece, hlook, Call.bind_ok hfind]; rfl), Call.bind_ok hfind]
        rfl
      · rw [inOneGo_err (by rw [userPiece, hlook, Call.bind_err hfind]), Call.bind_err hfind]
      · rw [inOneGo_panic (by rw [userPiece, hlook, Call.bind_panic hfind]), Call.bind_panic hfind]

/-- Calls that run at the same time. -/
abbrev UserCalls := Concurrent World UserStage GoError (Option User)

/-- One of the calls runs its next piece. -/
def UserCalls.step (calls : ℕ → UserCall) : UserCalls → UserEnv × ℕ → UserCalls :=
  Concurrent.step fun env i => userPiece env (calls i)

/-- Calls of which none has done anything yet. -/
def UserCalls.begin (w : World) : UserCalls := ⟨w, fun _ => .running .called⟩

/-- No auth id has two rows. -/
def DB.UniqueAuth (db : DB) : Prop := (db.users.rows.map User.authID).Nodup

/-- When a call inserts a row, there is still none with its auth id. -/
def StillAbsent (c : UserCalls) (e : UserEnv × ℕ) : Prop :=
  ∀ user, c.progress e.2 = .running (.absent user) → e.1.fails .createUser = false →
    ∀ u ∈ c.shared.db.users.rows, u.authID ≠ user.authID

/-! ## The pieces -/

section Pieces

variable {w : World}

/-- Two rows of one authentication are one row. -/
theorem DB.UniqueAuth.eq {db : DB} (h : db.UniqueAuth) {u v : User} (hu : u ∈ db.users.rows)
    (hv : v ∈ db.users.rows) (hauth : u.authID = v.authID) : u = v :=
  List.inj_on_of_nodup_map h hu hv hauth

/-- With one row for each auth id, any order of the rows gives the same user. -/
theorem DB.UniqueAuth.find?_eq {db : DB} (h : db.UniqueAuth) {authID : AuthID} (hne : authID ≠ [])
    (users : Arrangement User) :
    (users.order db.users.rows).find? (fun u => decide (authID = [] ∨ u.authID = authID)) =
      db.userByAuthID authID := by
  cases hfirst : db.userByAuthID authID with
  | none =>
    have hnone := Table.first?_eq_none.mp hfirst
    exact List.find?_eq_none.mpr fun u hu => by
      simp [hnone u ((Arrangement.mem_order users).mp hu)]
  | some u =>
    obtain ⟨hu, hauth⟩ := Table.first?_mem hfirst
    have hsome : ((users.order db.users.rows).find?
        fun u => decide (authID = [] ∨ u.authID = authID)).isSome :=
      List.find?_isSome.mpr ⟨u, (Arrangement.mem_order users).mpr hu, hauth⟩
    obtain ⟨v, hv⟩ := Option.isSome_iff_exists.mp hsome
    have hmem : v ∈ db.users.rows :=
      (Arrangement.mem_order users).mp (List.mem_of_find?_eq_some hv)
    have hu' : u.authID = authID := by simpa [hne] using hauth
    have hv' : v.authID = authID := by simpa [hne] using List.find?_some hv
    rw [hv, h.eq hmem hu (hv'.trans hu'.symm)]

/-- With one row for each auth id, a login and a verdict find the same user. -/
theorem findUserByAuthID_eq (h : w.db.UniqueAuth) {authID : AuthID} (hne : authID ≠ [])
    (env : UserEnv) :
    (findUserByAuthID env authID).run w =
      (Call.io (env.fails .findUser) .io <| Call.read fun w => w.db.userByAuthID authID).run w := by
  unfold findUserByAuthID
  cases env.fails .findUser with
  | true => rfl
  | false =>
    exact congrArg (fun found => (Outcome.ok found, w)) (h.find?_eq hne env.users)

/-- A lookup changes nothing. -/
theorem keeps_lookUp (env : UserEnv) (call : UserCall) : Call.Keeps id (call.lookUp env) := by
  have hfind : ∀ authID, Call.Keeps id (findUserByAuthID env authID) := fun authID =>
    Call.Keeps.io _ _ (Call.Keeps.read _)
  cases call with
  | create authID userData =>
    refine Call.Keeps.bind (hfind authID) fun found => ?_
    cases found with
    | none => exact Call.Keeps.pure _
    | some existing => exact Call.Keeps.pure _
  | update authID userData =>
    refine Call.Keeps.bind (hfind authID) fun found => ?_
    cases found with
    | none => exact Call.Keeps.pure _
    | some existing => exact Call.Keeps.pure _
  | author authID =>
    cases hprefix : authID.prefix? 8 with
    | none =>
      rw [UserCall.lookUp, hprefix]
      exact Call.Keeps.crash
    | some idPrefix =>
      rw [UserCall.lookUp, hprefix]
      refine Call.Keeps.bind (Call.Keeps.io _ _ (Call.Keeps.read _)) fun found => ?_
      cases found with
      | none => exact Call.Keeps.pure _
      | some existing => exact Call.Keeps.pure _

/-- An update changes no auth id. -/
theorem keeps_updateFound (env : UserEnv) (userData : UserModifiableData) (existing : User) :
    Call.Keeps (fun w : World => w.db.users.rows.map User.authID)
      (updateFound env userData existing) := by
  refine Call.Keeps.io _ _ (Call.Keeps.bind (Call.Keeps.write fun w => ?_) fun _ => Call.Keeps.pure _)
  show (w.db.users.modify existing.id userData.apply userData.id_apply).rows.map User.authID = _
  rw [Table.rows_modify, List.map_map]
  refine List.map_congr_left fun u _ => ?_
  simp only [Function.comp_apply]
  split_ifs <;> rfl

/-- An insertion adds one auth id, if it does not fail. -/
theorem authIDs_insertUser (env : UserEnv) (user : User) (w : World) :
    ((insertUser env user).run w).2.db.users.rows.map User.authID =
      w.db.users.rows.map User.authID ++
        if env.fails .createUser then [] else [user.authID] := by
  unfold insertUser
  cases env.fails .createUser with
  | true => exact (List.append_nil _).symm
  | false => exact List.map_append

end Pieces

/-! ## Interleavings -/

/-- A piece keeps the auth ids apart exactly when it does not insert one that is there. -/
theorem uniqueAuth_step {calls : ℕ → UserCall} {c : UserCalls} (h : c.shared.db.UniqueAuth)
    (e : UserEnv × ℕ) : (c.step calls e).shared.db.UniqueAuth ↔ StillAbsent c e := by
  unfold StillAbsent
  cases hprogress : c.progress e.2 with
  | returned o =>
    have hsame : c.step calls e = c := Concurrent.step_returned hprogress
    rw [hsame]
    refine iff_of_true h ?_
    rintro user ⟨⟩
  | running stage =>
    have hshared : (c.step calls e).shared =
        ((userPiece e.1 (calls e.2) stage).run c.shared).2 := Concurrent.shared_step hprogress
    rw [hshared]
    unfold DB.UniqueAuth at h ⊢
    cases stage with
    | called =>
      have hsame : ((userPiece e.1 (calls e.2) .called).run c.shared).2 = c.shared :=
        keeps_lookUp e.1 (calls e.2) c.shared
      rw [hsame]
      refine iff_of_true h ?_
      rintro user ⟨⟩
    | found existing userData =>
      have hsame : ((userPiece e.1 (calls e.2) (.found existing userData)).run
          c.shared).2.db.users.rows.map User.authID = c.shared.db.users.rows.map User.authID :=
        Call.Keeps.bind (keeps_updateFound e.1 userData existing) (fun _ => Call.Keeps.pure _)
          c.shared
      rw [hsame]
      refine iff_of_true h ?_
      rintro user ⟨⟩
    -- Only here a row is inserted.
    | absent user =>
      have hstate : ((userPiece e.1 (calls e.2) (.absent user)).run c.shared).2 =
          ((insertUser e.1 user).run c.shared).2 := Call.state_bind (fun _ _ => rfl) c.shared
      rw [hstate, authIDs_insertUser]
      cases hcreate : e.1.fails .createUser with
      | true =>
        rw [if_pos rfl, List.append_nil]
        refine iff_of_true h ?_
        intro user' _ hfails
        cases hfails
      | false =>
        rw [if_neg Bool.false_ne_true, List.nodup_append_comm, List.singleton_append,
          List.nodup_cons]
        constructor
        · rintro ⟨hnew, -⟩ user' heq - u hu hauth
          cases heq
          exact hnew (List.mem_map.mpr ⟨u, hu, hauth⟩)
        · intro habsent
          refine ⟨fun hmem => ?_, h⟩
          obtain ⟨u, hu, hauth⟩ := List.mem_map.mp hmem
          exact habsent user rfl rfl u hu hauth

/-- In an interleaving of calls about users, no auth id ever has two rows exactly when, whenever a
row is inserted, there is none with its auth id. -/
theorem uniqueAuth_iff (calls : ℕ → UserCall) (w : World) (es : List (UserEnv × ℕ))
    (h : w.db.UniqueAuth) :
    Throughout (UserCalls.step calls) (fun c => c.shared.db.UniqueAuth) (.begin w) es ↔
      Along (UserCalls.step calls) StillAbsent (.begin w) es :=
  throughout_iff_along (I := fun _ => True) (fun _ _ _ _ => trivial)
    (fun _ e _ _ hunique => uniqueAuth_step hunique e) trivial h
    (Along.of_forall fun _ _ => trivial)

/-- Nothing fails. -/
def UserEnv.quiet : UserEnv := ⟨.quiet, false, .inserted User⟩

/-- A login of the solver, and a verdict on a submission of theirs. -/
def loginAndVerdict (i : ℕ) : UserCall :=
  if i = 0 then .create solver ⟨utf8 "Ada", [], [], [], []⟩ else .author solver

/-- The verdict comes when the row is there. -/
theorem uniqueAuth_loginThenVerdict :
    Throughout (UserCalls.step loginAndVerdict) (fun c => c.shared.db.UniqueAuth) (.begin .empty)
      [(.quiet, 0), (.quiet, 0), (.quiet, 1)] := by
  refine (uniqueAuth_iff loginAndVerdict .empty _ List.nodup_nil).mpr ⟨?_, ?_, ?_, trivial⟩
  · rintro user ⟨⟩
  · rintro user ⟨⟩ - u hu
    cases hu
  · rintro user ⟨⟩

/-- Both find no row, and each of them inserts one. -/
theorem not_uniqueAuth_byTurns :
    World.empty.db.UniqueAuth ∧
      ¬ (run (UserCalls.step loginAndVerdict) (.begin .empty)
        [(.quiet, 0), (.quiet, 1), (.quiet, 0), (.quiet, 1)]).shared.db.UniqueAuth := by
  refine ⟨List.nodup_nil, ?_⟩
  unfold DB.UniqueAuth
  decide +kernel

end Bsg.Central
