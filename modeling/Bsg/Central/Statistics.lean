import Bsg.Central.Store
import Bsg.Foundations.Interleave
import Mathlib.Algebra.BigOperators.Group.Finset.Basic
import Mathlib.Tactic.Abel

/-!
# Statistics

`services/statistics.go` keeps the total score of each user in each room. A new score is added by
reading the total and by saving the whole row with the sum, and other requests may come in between.
The scores are whole numbers, since they are rounded.

`NoneLost` says that the totals are what they were, with the scores of all calls that returned since
(those that failed add nothing). `noneLost_iff` says that this holds throughout an interleaving
exactly when every call that saves a sum finds the total that it had read.

The pieces of a call are the ones of `updateUserScore` (`updateUserScore_inPieces`).
-/

namespace Bsg.Central

open Bsg.Foundations

/-- The table `statistics`: the total score of a user in a room, by its primary key. -/
abbrev Totals := AuthID → String → Option ℤ

/-- The total score of a user in a room; without a row it is the zero value. -/
def Totals.total (t : Totals) (userID : AuthID) (roomID : String) : ℤ := (t userID roomID).getD 0

/-- The table with another total. -/
def Totals.set (t : Totals) (userID : AuthID) (roomID : String) (totalScore : ℤ) : Totals :=
  Function.update t userID (Function.update (t userID) roomID (some totalScore))

/-- Which statements of a call fail. -/
structure StatisticsEnv where
  find : Bool
  update : Bool
  create : Bool

/-- A call to add a score. -/
structure ScoreUpdate where
  currentUser : AuthID
  roomName : String
  newScore : ℤ

/-- A function of the statistics service. -/
abbrev StatisticsService (α : Type) := Call Totals GoError α

section Service

variable (env : StatisticsEnv) (call : ScoreUpdate)

/-- `GetUserScore` -/
def getUserScore : StatisticsService ℤ :=
  .io env.find .io <| Call.read fun t => t.total call.currentUser call.roomName

/-- The UPDATE statement; it tells whether there was a row. -/
def updateRow (totalScore : ℤ) : StatisticsService Bool :=
  .io env.update .io <| do
    match ← Call.read fun t : Totals => t call.currentUser call.roomName with
    | none => pure false
    | some _ => do
      Call.write fun t => t.set call.currentUser call.roomName totalScore
      pure true

/-- The INSERT statement, which a row with the same key forbids. -/
def insertRow (totalScore : ℤ) : StatisticsService Unit :=
  .io env.create .io <| do
    match ← Call.read fun t : Totals => t call.currentUser call.roomName with
    | none => Call.write fun t => t.set call.currentUser call.roomName totalScore
    | some _ => .fail (.other "duplicate key value violates unique constraint")

/-- The INSERT statement that updates all columns of a row with the same key. -/
def upsertRow (totalScore : ℤ) : StatisticsService Unit :=
  .io env.create .io <| Call.write fun t => t.set call.currentUser call.roomName totalScore

/-- A part of the primary key has the zero value. -/
def ScoreUpdate.ZeroKey : Prop := call.currentUser = [] ∨ call.roomName = ""

instance : Decidable call.ZeroKey := inferInstanceAs (Decidable (_ ∨ _))

/-- `Save`: a row whose key has a zero value is inserted, any other one updated or, if it is not
there, inserted. -/
def saveRow (totalScore : ℤ) : StatisticsService Unit :=
  if call.ZeroKey then insertRow env call totalScore
  else do
    if ← updateRow env call totalScore then pure () else upsertRow env call totalScore

/-- `UpdateUserScore` -/
def updateUserScore : StatisticsService Unit := do
  match ← (getUserScore env call).attempt with
  | .error _ => .fail (.value ⟨404, "Could not find statistics data for this user"⟩)
  | .ok existing => saveRow env call (existing + call.newScore)

end Service

/-! ## In pieces -/

/-- The points at which a call may be interrupted: it has read a total, and it found no row to
update. -/
inductive ScoreStage
  | called
  | found (existing : ℤ)
  | missing (existing : ℤ)

/-- The pieces of `UpdateUserScore`: its statements. -/
def scorePiece (env : StatisticsEnv) (call : ScoreUpdate) :
    ScoreStage → StatisticsService (ScoreStage ⊕ Unit)
  | .called => do
    match ← (getUserScore env call).attempt with
    | .error _ => .fail (.value ⟨404, "Could not find statistics data for this user"⟩)
    | .ok existing => pure (.inl (.found existing))
  | .found existing =>
    if call.ZeroKey then do
      insertRow env call (existing + call.newScore)
      pure (.inr ())
    else do
      if ← updateRow env call (existing + call.newScore) then pure (.inr ())
      else pure (.inl (.missing existing))
  | .missing existing => do
    upsertRow env call (existing + call.newScore)
    pure (.inr ())

/-- A call that is not interrupted does what `updateUserScore` does. -/
theorem updateUserScore_inPieces (env : StatisticsEnv) (call : ScoreUpdate) (t : Totals) :
    (inOneGo (scorePiece env call) 3 .called).run t =
      (updateUserScore env call >>= fun _ => pure (.inr ())).run t := by
  -- The row is saved from the sum on.
  have hsave : ∀ existing t, (inOneGo (scorePiece env call) 2 (.found existing)).run t =
      (saveRow env call (existing + call.newScore) >>= fun _ => pure (.inr ())).run t := by
    intro existing t
    unfold saveRow
    by_cases hzero : call.ZeroKey
    · rw [if_pos hzero]
      refine inOneGo_return (fun t => ?_) t
      rw [scorePiece, if_pos hzero]
    · rw [if_neg hzero, Call.run_bind_assoc]
      have hfound : scorePiece env call (.found existing) =
          (updateRow env call (existing + call.newScore) >>= fun updated =>
            if updated then pure (.inr ()) else pure (.inl (.missing existing))) := if_neg hzero
      rcases hupdate : (updateRow env call (existing + call.newScore)).run t with
        ⟨(_ | _) | e | _, t'⟩
      -- There was no row, so one is inserted.
      · rw [inOneGo_inl (by rw [hfound, Call.bind_ok hupdate]; rfl), Call.bind_ok hupdate]
        exact inOneGo_return (fun _ => rfl) t'
      · rw [inOneGo_inr (by rw [hfound, Call.bind_ok hupdate]; rfl), Call.bind_ok hupdate]
        rfl
      · rw [inOneGo_err (by rw [hfound, Call.bind_err hupdate]), Call.bind_err hupdate]
      · rw [inOneGo_panic (by rw [hfound, Call.bind_panic hupdate]), Call.bind_panic hupdate]
  unfold updateUserScore
  rw [Call.run_bind_assoc]
  rcases hread : (getUserScore env call).run t with ⟨existing | e | _, t'⟩
  · rw [inOneGo_inl (Call.attempt_ok hread _), Call.attempt_ok hread, hsave]
  · rw [inOneGo_err (Call.attempt_err hread _), Call.attempt_err hread]
    rfl
  · rw [inOneGo_panic (Call.attempt_panic hread _), Call.attempt_panic hread]

/-- Calls that add scores, each with its own user, room and score. -/
abbrev ScoreUpdates := Concurrent Totals ScoreStage GoError Unit

/-- One of the calls runs its next piece. -/
def ScoreUpdates.step (calls : ℕ → ScoreUpdate) :
    ScoreUpdates → StatisticsEnv × ℕ → ScoreUpdates :=
  Concurrent.step fun env i => scorePiece env (calls i)

/-- Calls of which none has done anything yet. -/
def ScoreUpdates.begin (t : Totals) : ScoreUpdates := ⟨t, fun _ => .running .called⟩

/-- What a call has added to the total of a user in a room: its score, once it returned. -/
def ScoreUpdate.added (call : ScoreUpdate) (userID : AuthID) (roomID : String) :
    Progress ScoreStage GoError Unit → ℤ
  | .returned (.ok _) =>
    if call.currentUser = userID ∧ call.roomName = roomID then call.newScore else 0
  | _ => 0

/-- Every total is what it was, with all that was added by the first `n` calls. -/
def NoneLost (calls : ℕ → ScoreUpdate) (n : ℕ) (t : Totals) (c : ScoreUpdates) : Prop :=
  ∀ userID roomID, c.shared.total userID roomID =
    t.total userID roomID + ∑ i ∈ Finset.range n, (calls i).added userID roomID (c.progress i)

/-- The next statement of a call writes. -/
def Saves (env : StatisticsEnv) (call : ScoreUpdate) (t : Totals) : ScoreStage → Prop
  | .called => False
  | .found _ =>
    if call.ZeroKey then env.create = false ∧ t call.currentUser call.roomName = none
    else env.update = false ∧ t call.currentUser call.roomName ≠ none
  | .missing _ => env.create = false

/-- When a call writes a sum, the total is still the one that it read. -/
def FindsWhatItRead (calls : ℕ → ScoreUpdate) (c : ScoreUpdates) (e : StatisticsEnv × ℕ) : Prop :=
  ∀ stage existing, c.progress e.2 = .running stage →
    stage = .found existing ∨ stage = .missing existing →
      Saves e.1 (calls e.2) c.shared stage →
        c.shared.total (calls e.2).currentUser (calls e.2).roomName = existing

/-! ## One piece -/

section Piece

variable {env : StatisticsEnv} {call : ScoreUpdate} {t : Totals} {existing : ℤ}

/-- Setting a total changes only the one of the user and the room. -/
theorem Totals.total_set (t : Totals) (userID userID' : AuthID) (roomID roomID' : String)
    (totalScore : ℤ) :
    (t.set userID roomID totalScore).total userID' roomID' =
      if userID = userID' ∧ roomID = roomID' then totalScore else t.total userID' roomID' := by
  unfold Totals.total Totals.set
  by_cases huser : userID' = userID
  · subst huser
    rw [Function.update_self]
    by_cases hroom : roomID' = roomID
    · subst hroom
      simp
    · rw [Function.update_of_ne hroom, if_neg fun h => hroom h.2.symm]
  · rw [Function.update_of_ne huser, if_neg fun h => huser h.1.symm]

/-- A call that has not returned has added nothing yet. -/
theorem ScoreUpdate.added_running (call : ScoreUpdate) (userID : AuthID) (roomID : String)
    (stage : ScoreStage) : call.added userID roomID (.running stage) = 0 := rfl

/-- A statement that writes saves the sum and is the last one of its call. -/
theorem scorePiece_writes {stage : ScoreStage}
    (hstage : stage = .found existing ∨ stage = .missing existing) (h : Saves env call t stage) :
    (scorePiece env call stage).run t =
      (.ok (.inr ()), t.set call.currentUser call.roomName (existing + call.newScore)) := by
  rcases hstage with rfl | rfl
  · by_cases hzero : call.ZeroKey
    · obtain ⟨hcreate, hrow⟩ : env.create = false ∧ t call.currentUser call.roomName = none := by
        simpa [Saves, hzero] using h
      rw [scorePiece, if_pos hzero, insertRow, hcreate]
      simp [hrow]
    · obtain ⟨hupdate, hrow⟩ : env.update = false ∧ t call.currentUser call.roomName ≠ none := by
        simpa [Saves, hzero] using h
      obtain ⟨score, hscore⟩ := Option.ne_none_iff_exists'.mp hrow
      rw [scorePiece, if_neg hzero, updateRow, hupdate]
      simp [hscore]
  · have hcreate : env.create = false := h
    rw [scorePiece, upsertRow, hcreate]
    rfl

/-- A statement that does not write leaves the table as it is, and its call has added nothing. -/
theorem scorePiece_not_saves {stage : ScoreStage} (h : ¬ Saves env call t stage) :
    ((scorePiece env call stage).run t).2 = t ∧
      ∀ userID roomID,
        call.added userID roomID (.after ((scorePiece env call stage).run t).1) = 0 := by
  cases stage with
  | called =>
    unfold scorePiece getUserScore
    cases env.find <;> exact ⟨rfl, fun _ _ => rfl⟩
  | found existing =>
    by_cases hzero : call.ZeroKey
    -- The insertion fails, by itself or because there is a row.
    · rw [scorePiece, if_pos hzero, insertRow]
      simp only [Saves, if_pos hzero] at h
      cases hcreate : env.create with
      | true => exact ⟨rfl, fun _ _ => rfl⟩
      | false =>
        have hrow : t call.currentUser call.roomName ≠ none := fun hrow => h ⟨hcreate, hrow⟩
        obtain ⟨score, hscore⟩ := Option.ne_none_iff_exists'.mp hrow
        simp [hscore, Progress.after, ScoreUpdate.added]
    -- The update fails, or it meets no row.
    · rw [scorePiece, if_neg hzero, updateRow]
      simp only [Saves, if_neg hzero] at h
      cases hupdate : env.update with
      | true => exact ⟨rfl, fun _ _ => rfl⟩
      | false =>
        have hrow : t call.currentUser call.roomName = none :=
          not_not.mp fun hrow => h ⟨hupdate, hrow⟩
        simp [hrow, Progress.after, ScoreUpdate.added]
  | missing existing =>
    have hcreate : env.create = true := by
      cases hcreate : env.create with
      | true => rfl
      | false => exact absurd hcreate h
    rw [scorePiece, upsertRow, hcreate]
    exact ⟨rfl, fun _ _ => rfl⟩

end Piece

/-! ## Interleavings -/

section Interleaving

variable {calls : ℕ → ScoreUpdate} {n : ℕ} {t : Totals} {c : ScoreUpdates}
  {e : StatisticsEnv × ℕ} {stage : ScoreStage}

/-- A piece changes the sum of what was added by what its own call has added. -/
theorem sum_added_step (calls : ℕ → ScoreUpdate) (hn : e.2 < n)
    (hstage : c.progress e.2 = .running stage) (userID : AuthID)
    (roomID : String) :
    ∑ i ∈ Finset.range n, (calls i).added userID roomID ((c.step calls e).progress i) =
      (calls e.2).added userID roomID ((c.step calls e).progress e.2) +
        ∑ i ∈ Finset.range n, (calls i).added userID roomID (c.progress i) := by
  have hmem : e.2 ∈ Finset.range n := Finset.mem_range.mpr hn
  have hothers : ∑ i ∈ (Finset.range n).erase e.2,
        (calls i).added userID roomID ((c.step calls e).progress i) =
      ∑ i ∈ (Finset.range n).erase e.2, (calls i).added userID roomID (c.progress i) := by
    refine Finset.sum_congr rfl fun i hi => ?_
    have hsame : (c.step calls e).progress i = c.progress i :=
      Concurrent.progress_step_of_ne (Finset.ne_of_mem_erase hi)
    rw [hsame]
  have hown : (calls e.2).added userID roomID (c.progress e.2) = 0 := by
    rw [hstage, ScoreUpdate.added_running]
  rw [← Finset.add_sum_erase _ _ hmem, ← Finset.add_sum_erase (Finset.range n)
    (fun i => (calls i).added userID roomID (c.progress i)) hmem, hothers, hown, zero_add]

/-- No score is lost by a piece exactly when the totals change by what its call has added. -/
theorem noneLost_step_iff (hn : e.2 < n) (hstage : c.progress e.2 = .running stage)
    (h : NoneLost calls n t c) :
    NoneLost calls n t (c.step calls e) ↔ ∀ userID roomID,
      (c.step calls e).shared.total userID roomID =
        c.shared.total userID roomID +
          (calls e.2).added userID roomID ((c.step calls e).progress e.2) := by
  refine forall_congr' fun userID => forall_congr' fun roomID => ?_
  have hbefore := h userID roomID
  have hsum := sum_added_step calls hn hstage userID roomID
  rw [hsum]
  constructor
  · intro hafter
    omega
  · intro hafter
    omega

/-- A piece loses no score exactly when, if it writes, the total is still the one that was read. -/
theorem noneLost_step (hn : e.2 < n) (h : NoneLost calls n t c) :
    NoneLost calls n t (c.step calls e) ↔ FindsWhatItRead calls c e := by
  cases hprogress : c.progress e.2 with
  | returned o =>
    have hsame : c.step calls e = c := Concurrent.step_returned hprogress
    rw [hsame]
    refine iff_of_true h ?_
    intro stage existing hstage
    rw [hprogress] at hstage
    cases hstage
  | running stage =>
    have hshared : (c.step calls e).shared =
        ((scorePiece e.1 (calls e.2) stage).run c.shared).2 := Concurrent.shared_step hprogress
    have hself : (c.step calls e).progress e.2 =
        .after ((scorePiece e.1 (calls e.2) stage).run c.shared).1 :=
      Concurrent.progress_step_self hprogress
    rw [noneLost_step_iff hn hprogress h, hshared, hself]
    -- A piece that writes nothing adds nothing to any total.
    by_cases hwrites : Saves e.1 (calls e.2) c.shared stage
    swap
    · obtain ⟨hsame, hnone⟩ := scorePiece_not_saves hwrites
      refine iff_of_true (fun userID roomID => ?_) fun stage' existing hstage' _ hwrites' => ?_
      · rw [hsame, hnone, add_zero]
      · rw [hprogress] at hstage'
        cases hstage'
        exact absurd hwrites' hwrites
    · -- Only a call that has read a total writes.
      obtain ⟨existing, hread⟩ :
          ∃ existing, stage = .found existing ∨ stage = .missing existing := by
        cases stage with
        | called => exact hwrites.elim
        | found existing => exact ⟨existing, Or.inl rfl⟩
        | missing existing => exact ⟨existing, Or.inr rfl⟩
      rw [scorePiece_writes hread hwrites]
      dsimp only [Progress.after, ScoreUpdate.added]
      constructor
      · -- What is written is the total that was read plus the score, so the sum is right when this
        -- was still the total.
        intro htotals stage' existing' hstage' hread' _
        have htotal := htotals (calls e.2).currentUser (calls e.2).roomName
        rw [Totals.total_set, if_pos ⟨rfl, rfl⟩, if_pos ⟨rfl, rfl⟩] at htotal
        have hsame : existing = existing' := by
          rw [hprogress] at hstage'
          cases hstage'
          rcases hread with rfl | rfl <;> simpa using hread'
        omega
      · intro hfinds userID roomID
        have hold : c.shared.total (calls e.2).currentUser (calls e.2).roomName = existing :=
          hfinds stage existing hprogress hread hwrites
        rw [Totals.total_set]
        split
        case isTrue hkey =>
          obtain ⟨rfl, rfl⟩ := hkey
          rw [hold]
        case isFalse hkey => rw [add_zero]

end Interleaving

/-- In an interleaving of calls that add scores, no score is ever lost exactly when every call that
saves a sum finds the total that it had read. -/
theorem noneLost_iff (calls : ℕ → ScoreUpdate) (n : ℕ) (t : Totals)
    (es : List (StatisticsEnv × ℕ)) (h : ∀ e ∈ es, e.2 < n) :
    Throughout (ScoreUpdates.step calls) (NoneLost calls n t) (.begin t) es ↔
      Along (ScoreUpdates.step calls) (FindsWhatItRead calls) (.begin t) es := by
  have hbegin : NoneLost calls n t (.begin t) := by
    intro userID roomID
    have hnone : ∑ i ∈ Finset.range n,
        (calls i).added userID roomID ((ScoreUpdates.begin t).progress i) = 0 :=
      Finset.sum_eq_zero fun i _ => rfl
    rw [hnone, add_zero]
    rfl
  exact throughout_iff_along (I := fun _ => True) (fun _ _ _ _ => trivial)
    (fun _ _ _ hn hlost => noneLost_step hn hlost) trivial hbegin (Along.of_mem h)

/-- Everything works. -/
def StatisticsEnv.faultless : StatisticsEnv := ⟨false, false, false⟩

/-- Two scores of one user in one room. -/
def twoScores (i : ℕ) : ScoreUpdate := ⟨[97], "room", if i = 0 then 100 else 200⟩

/-- The two calls after each other, the first of which inserts the row. -/
def oneByOne : List (StatisticsEnv × ℕ) :=
  [(.faultless, 0), (.faultless, 0), (.faultless, 0), (.faultless, 1), (.faultless, 1)]

/-- Both calls read before one of them writes. -/
def byTurns : List (StatisticsEnv × ℕ) :=
  [(.faultless, 0), (.faultless, 1), (.faultless, 0), (.faultless, 0), (.faultless, 1)]

/-- Each call finds the total that it had read. -/
theorem noneLost_oneByOne :
    Throughout (ScoreUpdates.step twoScores) (NoneLost twoScores 2 fun _ _ => none)
      (.begin fun _ _ => none) oneByOne := by
  refine (noneLost_iff twoScores 2 (fun _ _ => none) oneByOne (by decide)).mpr
    ⟨?_, ?_, ?_, ?_, ?_, trivial⟩
  · rintro stage existing ⟨⟩ (h | h) <;> cases h
  · rintro stage existing ⟨⟩ (h | h) <;> cases h
    exact fun _ => rfl
  · rintro stage existing ⟨⟩ (h | h) <;> cases h
    exact fun _ => rfl
  · rintro stage existing ⟨⟩ (h | h) <;> cases h
  · rintro stage existing ⟨⟩ (h | h) <;> cases h
    exact fun _ => rfl

/-- The first score is lost: the total is 200 where 100 and 200 were added. -/
theorem not_noneLost_byTurns :
    ¬ NoneLost twoScores 2 (fun _ _ => none)
      (run (ScoreUpdates.step twoScores) (.begin fun _ _ => none) byTurns) := by
  intro h
  have htotal := h [97] "room"
  revert htotal
  decide

end Bsg.Central
