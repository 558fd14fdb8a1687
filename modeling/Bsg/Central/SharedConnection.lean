import Bsg.Central.StartPieces

/-!
# The connection that the starts of rounds share

When starts of rounds run at the same time, one may find the transaction of another in the field
`db` of the round service. `rooted_of_along` says that the field is the root connection again when
all have returned, and that no write goes through the transaction of another call, as long as a call
uses, saves and sets the field only while the root is in it. The invariant is `Undisturbed`: the
field holds the transaction of a call exactly while that is between the two ends of its swap.
-/

namespace Bsg.Central

open Bsg.Foundations

/-- The state of starts that run at the same time. -/
abbrev Swaps := Concurrent SharedService StartStage GoError (ℤ × List Problem)

/-- One of the starts runs its next piece. -/
def Swaps.step (rounds : ℕ → Round) (users : ℕ → List AuthID) : Swaps → Env × ℕ → Swaps :=
  Concurrent.step fun env i => startPiece env i (rounds i) (users i)

/-- No start has done anything yet, and the service is at its root connection. -/
def Swaps.begin (w : World) : Swaps :=
  ⟨⟨w, .root, fun _ => id, fun _ => false, []⟩, fun _ => .running .called⟩

/-- Every start that was begun has returned. -/
def AllReturned (c : Swaps) : Prop :=
  ∀ i, (c.progress i).point? = none ∨ c.progress i = .running .called

/-- The service ends up at the root, is never at a transaction that is over, and no call writes
through the transaction of another. -/
structure Rooted (c : Swaps) : Prop where
  restored : AllReturned c → c.shared.db = .root
  live : ∀ j, c.shared.db = .tx j → c.shared.finished j = false
  own : ∀ i connection, (i, connection) ∈ c.shared.writes → connection = .root ∨ connection = .tx i

/-- The piece uses, saves or sets the connection of the service, before the end of its own swap. -/
def StartStage.swaps : StartStage → Bool
  | .loaded _ | .announced _ | .begun _ _ | .saved _ _ _ => true
  | _ => false

/-- A start swaps the connection only while it is the root. -/
def SwapsAlone (c : Swaps) (e : Env × ℕ) : Prop :=
  (c.progress e.2).point?.any StartStage.swaps = true → c.shared.db = .root

instance (c : Swaps) (e : Env × ℕ) : Decidable (SwapsAlone c e) :=
  inferInstanceAs (Decidable (_ → _))

/-! ## What a piece does to the connection -/

/-- The connection and the transactions, as call `i` at the point should find them. -/
def StartStage.Proper (i : ℕ) (s : SharedService) : StartStage → Prop
  | .called | .loaded _ | .marked _ | .announced _ => s.db ≠ .tx i ∧ s.finished i = false
  | .begun _ tx => tx = .own ∧ s.db ≠ .tx i ∧ s.finished i = false
  | .saved _ tx oldDBConnection =>
    tx = .own ∧ oldDBConnection = .root ∧ s.db ≠ .tx i ∧ s.finished i = false
  | .enrolling _ tx oldDBConnection _ | .ranking _ tx oldDBConnection _ _
  | .leaving _ tx oldDBConnection _ =>
    tx = .own ∧ oldDBConnection = .root ∧ s.db = .tx i ∧ s.finished i = false
  | .closing _ tx _ => tx = .own ∧ s.db ≠ .tx i ∧ s.finished i = false
  | .closed _ => s.db ≠ .tx i

/-- Outside its swap, a start does not have its transaction in the service. -/
def ProperProgress (i : ℕ) (s : SharedService) :
    Progress StartStage GoError (ℤ × List Problem) → Prop
  | .running k => k.Proper i s
  | .returned _ => s.db ≠ .tx i

section Pieces

variable {env : Env} {i : ℕ} {round : Round} {users : List AuthID} {s s' : SharedService}

/-- Whether a call finds what it should depends on the connection and on its own transaction. -/
theorem StartStage.Proper.congr {k : StartStage} (h : k.Proper i s)
    (hdb : s'.db = .tx i ↔ s.db = .tx i) (hfinished : s'.finished i = s.finished i) :
    k.Proper i s' := by
  cases k <;> simp only [StartStage.Proper, ne_eq, hdb, hfinished] at h ⊢ <;> exact h

/-- Proper progress depends on whose transaction is the connection, and on whether it is finished.
-/
theorem ProperProgress.congr {p : Progress StartStage GoError (ℤ × List Problem)}
    (h : ProperProgress i s p) (hdb : s'.db = .tx i ↔ s.db = .tx i)
    (hfinished : s'.finished i = s.finished i) : ProperProgress i s' p := by
  cases p with
  | returned o => exact mt hdb.mp h
  | running k => exact StartStage.Proper.congr h hdb hfinished

/-- A call on the world leaves the connection. -/
theorem keeps_onWorld {γ α : Type} {f : SharedService → γ} (h : ∀ s w, f { s with world := w } = f s)
    (x : Service α) : Call.Keeps f (onWorld x) := fun s => h s _

/-- Reading through the connection only reads. -/
theorem keeps_readThrough {γ α : Type} (f : SharedService → γ) (g : DB → α) :
    Call.Keeps f (readThrough g) := by
  refine Call.Keeps.bind (Call.Keeps.read _) fun db => ?_
  cases db with
  | none => exact Call.Keeps.fail _
  | some db => exact Call.Keeps.pure _

/-- A write leaves the connection and the ends of transactions. -/
theorem keeps_writeThrough (i : ℕ) (f : DB → DB) :
    Call.Keeps (fun s => (s.db, s.finished)) (writeThrough i f) := by
  refine Call.Keeps.bind (Call.Keeps.write fun s => rfl) fun _ =>
    Call.Keeps.bind (Call.Keeps.read _) fun db => ?_
  cases db with
  | none => exact Call.Keeps.fail _
  | some db =>
    refine Call.Keeps.write fun s => ?_
    unfold SharedService.written
    cases s.db <;> rfl

/-- A write is told with the connection that the service has. -/
theorem writes_writeThrough (i : ℕ) (f : DB → DB) (s : SharedService) :
    ((writeThrough i f).run s).2.writes = s.writes ++ [(i, s.db)] := by
  unfold writeThrough
  rw [Call.run_write_bind]
  refine Call.Keeps.bind (f := SharedService.writes) (Call.Keeps.read _) (fun db => ?_)
    { s with writes := s.writes ++ [(i, s.db)] }
  cases db with
  | none => exact Call.Keeps.fail _
  | some db =>
    refine Call.Keeps.write fun s => ?_
    unfold SharedService.written
    cases s.db <;> rfl

/-- Opening a transaction leaves what it does not set up. -/
theorem keeps_openScope {γ : Type} {f : SharedService → γ}
    (h : ∀ s pending, f { s with pending := pending } = f s) (env : Env) (i : ℕ) :
    Call.Keeps f (openScope env i) := by
  refine Call.Keeps.io _ _ (Call.Keeps.bind (Call.Keeps.read _) fun connection => ?_)
  cases connection with
  | root => exact Call.Keeps.bind (Call.Keeps.write fun s => h s _) fun _ => Call.Keeps.pure _
  | tx j =>
    exact Call.Keeps.bind (keeps_readThrough f _) fun _ =>
      Call.Keeps.bind (Call.Keeps.read _) fun _ => Call.Keeps.pure _

/-- Leaving the transaction after an error keeps what the call keeps. -/
theorem keeps_orLeave {γ α : Type} {f : SharedService → γ} {x : Shared α} (hx : Call.Keeps f x)
    (d : ℤ × List Problem) (tx : Scope) (oldDBConnection : Connection) (next : StartStage) :
    Call.Keeps f (orLeave d tx oldDBConnection x next) := by
  refine Call.Keeps.bind (Call.Keeps.attempt hx) fun r => ?_
  cases r with
  | error e => exact Call.Keeps.pure _
  | ok a => exact Call.Keeps.pure _

/-- An error that leaves the transaction leaves it in the state that it made. -/
theorem state_orLeave {α : Type} (d : ℤ × List Problem) (tx : Scope) (oldDBConnection : Connection)
    (x : Shared α) (next : StartStage) (s : SharedService) :
    ((orLeave d tx oldDBConnection x next).run s).2 = (x.run s).2 := by
  refine (Call.state_bind (fun r s => ?_) s).trans (Call.state_attempt x s)
  cases r <;> rfl

/-- The piece sets the connection of the service, or ends the transaction. -/
def StartStage.moves : StartStage → Bool
  | .saved _ _ _ | .leaving _ _ _ _ | .closing _ _ _ => true
  | _ => false

/-- The piece writes to the database through the service. -/
def StartStage.writesThrough : StartStage → Bool
  | .loaded _ | .enrolling _ _ _ (_ :: _) => true
  | _ => false

/-- A piece that neither moves the connection nor writes touches only what starts do to the world
and to the transaction that they open. -/
theorem keeps_quietPiece {γ : Type} {f : SharedService → γ}
    (hworld : ∀ s w, f { s with world := w } = f s)
    (hpending : ∀ s p, f { s with pending := p } = f s) (env : Env) (i : ℕ) (round : Round)
    (users : List AuthID) {k : StartStage} (hmoves : k.moves = false)
    (hwrites : k.writesThrough = false) : Call.Keeps f (startPiece env i round users k) := by
  cases k with
  | called =>
    refine Call.Keeps.ite _ (Call.Keeps.fail _) (Call.Keeps.bind
      (Call.Keeps.io _ _ (keeps_readThrough f _)) fun problemSet => ?_)
    exact Call.Keeps.ite _ (Call.Keeps.fail _) (Call.Keeps.pure _)
  | loaded problemSet => cases hwrites
  | marked d => exact Call.Keeps.bind (keeps_onWorld hworld _) fun _ => Call.Keeps.pure _
  | announced d => exact Call.Keeps.bind (keeps_openScope hpending env i) fun _ => Call.Keeps.pure _
  | begun d tx => exact Call.Keeps.bind (Call.Keeps.read _) fun _ => Call.Keeps.pure _
  | enrolling d tx oldDBConnection users =>
    cases users with
    | nil => exact Call.Keeps.pure _
    | cons user rest => cases hwrites
  | ranking d tx oldDBConnection user rest => exact keeps_orLeave (keeps_onWorld hworld _) _ _ _ _
  | closed d => exact Call.Keeps.bind (keeps_onWorld hworld _) fun _ => Call.Keeps.pure _
  | saved d tx oldDBConnection => cases hmoves
  | leaving d tx oldDBConnection error => cases hmoves
  | closing d tx error => cases hmoves

/-- Most pieces leave the connection and the ends of transactions. -/
theorem keeps_startPiece (env : Env) (i : ℕ) (round : Round) (users : List AuthID) {k : StartStage}
    (hk : k.moves = false) :
    Call.Keeps (fun s => (s.db, s.finished)) (startPiece env i round users k) := by
  cases hwrites : k.writesThrough with
  | false => exact keeps_quietPiece (fun _ _ => rfl) (fun _ _ => rfl) env i round users hk hwrites
  | true =>
    cases k with
    | loaded problemSet =>
      exact Call.Keeps.bind (Call.Keeps.io _ _ (keeps_writeThrough i _)) fun _ => Call.Keeps.pure _
    | enrolling d tx oldDBConnection users =>
      cases users with
      | nil => cases hwrites
      | cons user rest => exact keeps_orLeave (Call.Keeps.io _ _ (keeps_writeThrough i _)) _ _ _ _
    | _ => cases hwrites

/-- The end of a transaction touches only the database and the transactions. -/
theorem keeps_closing {γ : Type} {f : SharedService → γ} {i : ℕ}
    (hworld : ∀ s w, f { s with world := w } = f s)
    (hpending : ∀ s p, f { s with pending := p } = f s)
    (hfinished : ∀ s b, f { s with finished := Function.update s.finished i b } = f s) (env : Env)
    (round : Round) (users : List AuthID) (d : ℤ × List Problem) (tx : Scope)
    (error : Option GoError) : Call.Keeps f (startPiece env i round users (.closing d tx error)) := by
  refine Call.Keeps.bind ?_ fun _ => Call.Keeps.pure _
  cases tx with
  | own =>
    cases error with
    | none =>
      exact Call.Keeps.bind (Call.Keeps.write fun s => hfinished s true) fun _ =>
        Call.Keeps.io _ _ (Call.Keeps.write fun s => hworld s _)
    | some e =>
      exact Call.Keeps.bind (Call.Keeps.write fun s => hfinished s true) fun _ => Call.Keeps.fail _
  | savepoint j before =>
    cases error with
    | none => exact Call.Keeps.pure _
    | some e =>
      exact Call.Keeps.bind (Call.Keeps.write fun s => hpending s _) fun _ => Call.Keeps.fail _

/-- The writes are the same, or call `i` has written through the connection of the service. -/
def WritesOnce (i : ℕ) (s s' : SharedService) : Prop :=
  s'.writes = s.writes ∨ s'.writes = s.writes ++ [(i, s.db)]

/-- A write goes to the connection once, or fails. -/
theorem writesOnce_writeThrough (fails : Bool) (i : ℕ) (f : DB → DB) (s : SharedService) :
    WritesOnce i s ((Call.io fails .io (writeThrough i f)).run s).2 := by
  cases fails with
  | true => exact Or.inl rfl
  | false => exact Or.inr (writes_writeThrough i f s)

/-- A piece writes at most once, and only the mark of the round and the participants. -/
theorem writes_startPiece (env : Env) (i : ℕ) (round : Round) (users : List AuthID) (k : StartStage)
    (s : SharedService) :
    WritesOnce i s ((startPiece env i round users k).run s).2 ∧
      (k.writesThrough = false → ((startPiece env i round users k).run s).2.writes = s.writes) := by
  cases hwrites : k.writesThrough with
  | false =>
    -- A piece that writes nothing keeps the record of the writes.
    suffices h : Call.Keeps SharedService.writes (startPiece env i round users k) from
      ⟨Or.inl (h s), fun _ => h s⟩
    cases hmoves : k.moves with
    | false =>
      exact keeps_quietPiece (fun _ _ => rfl) (fun _ _ => rfl) env i round users hmoves hwrites
    | true =>
      cases k with
      | saved d tx oldDBConnection =>
        exact Call.Keeps.bind (Call.Keeps.write fun _ => rfl) fun _ => Call.Keeps.pure _
      | leaving d tx oldDBConnection error =>
        exact Call.Keeps.bind (Call.Keeps.write fun _ => rfl) fun _ => Call.Keeps.pure _
      | closing d tx error =>
        exact keeps_closing (fun _ _ => rfl) (fun _ _ => rfl) (fun _ _ => rfl) env round users d tx
          error
      | _ => cases hmoves
  | true =>
    -- Two kinds of pieces write: the mark of the round, and the row of a participant.
    refine ⟨?_, fun h => by cases h⟩
    cases k with
    | loaded problemSet =>
      rw [startPiece, Call.state_bind fun _ _ => rfl]
      exact writesOnce_writeThrough _ i _ s
    | enrolling d tx oldDBConnection users =>
      cases users with
      | nil => cases hwrites
      | cons user rest =>
        rw [startPiece, state_orLeave]
        exact writesOnce_writeThrough _ i _ s
    | _ => cases hwrites

/-- After a piece that leaves the transaction of the call out of the service. -/
theorem ProperProgress.after {o : Outcome GoError (StartStage ⊕ (ℤ × List Problem))}
    (hdb : s.db ≠ .tx i) (h : ∀ k, o = .ok (.inl k) → k.Proper i s) :
    ProperProgress i s (.after o) := by
  rcases o with (k | d) | e | _
  · exact h k rfl
  · exact hdb
  · exact hdb
  · exact hdb

/-- After a statement between the two ends of the swap, the call is still between them. -/
theorem properProgress_orLeave {α : Type} {d : ℤ × List Problem} {tx : Scope}
    {oldDBConnection : Connection} {x : Shared α} {next : StartStage} (hcalm : Call.Calm x)
    (hnext : next.Proper i s')
    (hleaving : ∀ error, StartStage.Proper i s' (.leaving d tx oldDBConnection error)) :
    ProperProgress i s' (.after ((orLeave d tx oldDBConnection x next).run s).1) := by
  rcases hx : x.run s with ⟨a | e | _, t⟩
  · rw [orLeave_ok hx]
    exact hnext
  · rw [orLeave_err hx]
    exact hleaving (some e)
  · exact absurd (congrArg Prod.fst hx) (hcalm s)

/-- Writing through the connection does not panic. -/
theorem calm_writeThrough (i : ℕ) (f : DB → DB) : Call.Calm (writeThrough i f) := by
  refine Call.Calm.bind (Call.Calm.write _) fun _ => Call.Calm.bind (Call.Calm.read _) fun db => ?_
  cases db with
  | none => exact Call.Calm.fail _
  | some db => exact Call.Calm.write _

/-- A call on the world panics only when the call does. -/
theorem calm_onWorld {α : Type} {x : Service α} (h : Call.Calm x) : Call.Calm (onWorld x) :=
  fun s => h s.world

/-- On the root, a transaction of the call's own is opened. -/
theorem openScope_root (env : Env) (i : ℕ) {d : ℤ × List Problem} {k : StartStage}
    (hroot : s.db = .root)
    (h : ((openScope env i >>= fun tx => pure (.inl (.begun d tx)) :
      Shared (StartStage ⊕ (ℤ × List Problem))).run s).1 = .ok (.inl k)) : k = .begun d .own := by
  unfold openScope at h
  cases hbegin : env.fails .beginParticipants with
  | true =>
    rw [hbegin] at h
    cases h
  | false =>
    rw [hbegin, Call.io_false, Call.run_bind_assoc, Call.run_read_bind, hroot] at h
    cases h
    rfl

/-- A call finds what it should at its next point, when it swaps the connection only while that is
the root. -/
theorem properProgress_startPiece (env : Env) (round : Round) (users : List AuthID) {k : StartStage}
    (hk : k.Proper i s) (halone : k.swaps = true → s.db = .root) :
    ProperProgress i ((startPiece env i round users k).run s).2
      (.after ((startPiece env i round users k).run s).1) := by
  set r := (startPiece env i round users k).run s with hr
  have hstill : k.moves = false → k.Proper i r.2 := fun hmoves => by
    obtain ⟨hdb, hfinished⟩ := Prod.ext_iff.mp (keeps_startPiece env i round users hmoves s)
    have hdb' : r.2.db = s.db := hdb
    exact hk.congr (by rw [hdb']) (congrFun hfinished i)
  cases k with
  | called =>
    have hk := hstill rfl
    have hyields : Call.Yields (fun a => ∃ problemSet, a = .inl (.loaded problemSet))
        (startPiece env i round users .called) := by
      refine Call.Yields.ite _ (Call.Yields.fail _) (Call.Yields.bind fun problemSet => ?_)
      exact Call.Yields.ite _ (Call.Yields.fail _) (Call.Yields.pure ⟨problemSet, rfl⟩)
    refine ProperProgress.after hk.1 fun k' hk' => ?_
    obtain ⟨problemSet, heq⟩ := hyields s _ hk'
    cases heq
    exact hk
  | loaded problemSet =>
    have hk := hstill rfl
    have hyields : Call.Yields (fun a => a = .inl (.marked (env.now, problemSet)))
        (startPiece env i round users (.loaded problemSet)) :=
      Call.Yields.bind fun _ => Call.Yields.pure rfl
    refine ProperProgress.after hk.1 fun k' hk' => ?_
    cases hyields s _ hk'
    exact hk
  | marked d =>
    have hk := hstill rfl
    have hyields : Call.Yields (fun a => a = .inl (.announced d))
        (startPiece env i round users (.marked d)) := Call.Yields.bind fun _ => Call.Yields.pure rfl
    refine ProperProgress.after hk.1 fun k' hk' => ?_
    cases hyields s _ hk'
    exact hk
  | announced d =>
    have hk := hstill rfl
    refine ProperProgress.after hk.1 fun k' hk' => ?_
    -- On the root, a transaction of the call's own is opened.
    rw [openScope_root env i (halone rfl) hk']
    exact ⟨rfl, hk⟩
  | begun d tx => exact ⟨hk.1, halone rfl, hk.2⟩
  | saved d tx oldDBConnection =>
    obtain ⟨rfl, hold, -, hfinished⟩ := hk
    exact ⟨rfl, hold, rfl, hfinished⟩
  | enrolling d tx oldDBConnection users' =>
    have hk := hstill rfl
    cases users' with
    | nil => exact hk
    | cons user rest =>
      exact properProgress_orLeave (Call.Calm.io _ _ (calm_writeThrough i _)) hk fun _ => hk
  | ranking d tx oldDBConnection user rest =>
    have hk := hstill rfl
    exact properProgress_orLeave (calm_onWorld (Call.Calm.io _ _ (Call.Calm.write _))) hk fun _ => hk
  | leaving d tx oldDBConnection error =>
    obtain ⟨htx, rfl, -, hfinished⟩ := hk
    exact ⟨htx, (fun h => by cases h), hfinished⟩
  | closing d tx error =>
    obtain ⟨-, hdb, -⟩ := hk
    have hkeep : r.2.db = s.db := keeps_closing (f := SharedService.db) (fun _ _ => rfl)
      (fun _ _ => rfl) (fun _ _ => rfl) env round users d tx error s
    have hdb' : r.2.db ≠ .tx i := by rwa [hkeep]
    have hyields : Call.Yields (fun a => a = .inl (.closed d))
        (startPiece env i round users (.closing d tx error)) :=
      Call.Yields.bind fun _ => Call.Yields.pure rfl
    refine ProperProgress.after hdb' fun k' hk' => ?_
    cases hyields s _ hk'
    exact hdb'
  | closed d =>
    have hk := hstill rfl
    have hyields : Call.Yields (fun a => a = .inr d) (startPiece env i round users (.closed d)) :=
      Call.Yields.bind fun _ => Call.Yields.pure rfl
    refine ProperProgress.after hk fun k' hk' => ?_
    cases hyields s _ hk'

/-- The other calls do not notice a piece of a call that swaps the connection only while it is the
root. -/
theorem startPiece_others (env : Env) (round : Round) (users : List AuthID) {k : StartStage}
    (hk : k.Proper i s) (halone : k.swaps = true → s.db = .root) {j : ℕ} (hj : j ≠ i) :
    (((startPiece env i round users k).run s).2.db = .tx j ↔ s.db = .tx j) ∧
      ((startPiece env i round users k).run s).2.finished j = s.finished j := by
  -- Three kinds of pieces move the connection or close a transaction.
  cases hmoves : k.moves with
  | false =>
    obtain ⟨hdb, hfinished⟩ := Prod.ext_iff.mp (keeps_startPiece env i round users hmoves s)
    have hdb' : ((startPiece env i round users k).run s).2.db = s.db := hdb
    exact ⟨by rw [hdb'], congrFun hfinished j⟩
  | true =>
    cases k with
    | saved d tx oldDBConnection =>
      obtain ⟨rfl, -⟩ := hk
      have hroot : s.db = .root := halone rfl
      refine ⟨?_, rfl⟩
      show Connection.tx i = .tx j ↔ _
      rw [hroot]
      simp [Ne.symm hj]
    | leaving d tx oldDBConnection error =>
      obtain ⟨-, rfl, hdb, -⟩ := hk
      refine ⟨?_, rfl⟩
      show Connection.root = .tx j ↔ _
      rw [hdb]
      simp [Ne.symm hj]
    | closing d tx error =>
      have hdb := keeps_closing (f := SharedService.db) (i := i) (fun _ _ => rfl) (fun _ _ => rfl)
        (fun _ _ => rfl) env round users d tx error s
      have hfinished := keeps_closing (f := fun s => s.finished j) (i := i) (fun _ _ => rfl)
        (fun _ _ => rfl) (fun s b => Function.update_of_ne hj b s.finished) env round users d tx
        error s
      have hdb' : ((startPiece env i round users (.closing d tx error)).run s).2.db = s.db := hdb
      exact ⟨by rw [hdb'], hfinished⟩
    | _ => cases hmoves

end Pieces

/-! ## Interleavings -/

/-- Every call finds what it should, and has written through the root or its own transaction. -/
structure Undisturbed (c : Swaps) : Prop where
  proper : ∀ i, ProperProgress i c.shared (c.progress i)
  own : ∀ i connection, (i, connection) ∈ c.shared.writes → connection = .root ∨ connection = .tx i

/-- Calls that are not disturbed leave the connection as they should. -/
theorem Undisturbed.rooted {c : Swaps} (h : Undisturbed c) : Rooted c := by
  refine ⟨fun hreturned => ?_, fun j hj => ?_, h.own⟩
  · cases hdb : c.shared.db with
    | root => rfl
    | tx i =>
      -- A transaction in the service belongs to a call that has not returned.
      have hproper := h.proper i
      rcases hreturned i with hnone | hcalled
      · cases hprogress : c.progress i with
        | running k =>
          rw [hprogress] at hnone
          cases hnone
        | returned o =>
          rw [hprogress] at hproper
          exact absurd hdb hproper
      · rw [hcalled] at hproper
        exact absurd hdb hproper.1
  · have hproper := h.proper j
    cases hprogress : c.progress j with
    | returned o =>
      rw [hprogress] at hproper
      exact absurd hj hproper
    | running k =>
      rw [hprogress] at hproper
      cases k with
      | closed d => exact absurd hj hproper
      | called => exact hproper.2
      | loaded problemSet => exact hproper.2
      | marked d => exact hproper.2
      | announced d => exact hproper.2
      | begun d tx => exact hproper.2.2
      | closing d tx error => exact hproper.2.2
      | _ => exact hproper.2.2.2

section Step

variable {rounds : ℕ → Round} {users : ℕ → List AuthID} {c : Swaps}

/-- A piece does not disturb the calls when it swaps the connection only while it is the root. -/
theorem undisturbed_step (h : Undisturbed c) (e : Env × ℕ) (halone : SwapsAlone c e) :
    Undisturbed (c.step rounds users e) := by
  obtain ⟨env, i⟩ := e
  cases hprogress : c.progress i with
  | returned o =>
    have hsame : c.step rounds users (env, i) = c := Concurrent.step_returned hprogress
    rwa [hsame]
  | running k =>
    -- Only start `i` moves; what it holds is proper, and it swaps the field only from the root.
    have hshared : (c.step rounds users (env, i)).shared =
        ((startPiece env i (rounds i) (users i) k).run c.shared).2 := Concurrent.shared_step hprogress
    have hk : k.Proper i c.shared := by
      have hproper := h.proper i
      rwa [hprogress] at hproper
    have hroot : k.swaps = true → c.shared.db = .root := by
      unfold SwapsAlone at halone
      dsimp only at halone
      rw [hprogress] at halone
      exact halone
    constructor
    · refine Concurrent.forall_step
        (R := fun j p => ProperProgress j (c.step rounds users (env, i)).shared p) ?_ fun j hj => ?_
      · rw [hshared]
        dsimp only
        rw [hprogress]
        exact properProgress_startPiece env (rounds i) (users i) hk hroot
      · rw [hshared]
        obtain ⟨hdb, hfinished⟩ := startPiece_others env (rounds i) (users i) hk hroot hj
        exact (h.proper j).congr hdb hfinished
    · intro j connection hmem
      -- One piece writes at most once, and over the connection that the field holds.
      obtain ⟨honce, hquiet⟩ := writes_startPiece env i (rounds i) (users i) k c.shared
      rw [hshared] at hmem
      rcases honce with hsame | hwrite
      · rw [hsame] at hmem
        exact h.own j connection hmem
      · rw [hwrite] at hmem
        rcases List.mem_append.mp hmem with hold | hnew
        · exact h.own j connection hold
        · -- Only the mark and the participants are written.
          have hpair := List.mem_singleton.mp hnew
          rw [(Prod.mk.inj hpair).1, (Prod.mk.inj hpair).2]
          cases k with
          | loaded problemSet => exact Or.inl (hroot rfl)
          | enrolling d tx oldDBConnection users' =>
            obtain ⟨-, -, hdb, -⟩ := hk
            exact Or.inr hdb
          | _ =>
            have hsame := hquiet rfl
            rw [hsame] at hwrite
            simp at hwrite

/-- A start that runs alone leaves the world that `initiateRoundStart` leaves, and the service at
the root. -/
theorem shared_initiateRoundStart {i : ℕ} (h : c.progress i = .running .called)
    (hroot : c.shared.db = .root) (hfinished : c.shared.finished i = false) (env : Env) :
    let last := run (Swaps.step rounds users) c
      (List.replicate (2 * (users i).length + 10) (env, i))
    last.shared.world = ((initiateRoundStart env (rounds i) (users i)).run c.shared.world).2 ∧
      last.shared.db = .root := by
  obtain ⟨s', hrun, hdb, hworld⟩ :=
    initiateRoundStart_inPieces env i (rounds i) (users i) hroot hfinished
  intro last
  have hlast : last.shared = s' := by
    show (run (Swaps.step rounds users) c _).shared = s'
    unfold Swaps.step
    rw [run_alone _ env _ c .called h, hrun]
  rw [hlast]
  exact ⟨hworld.trans (Call.state_bind (fun _ _ => rfl) _), hdb⟩

end Step

/-- The service ends up at the root, and no call writes through the transaction of another, as long
as every start swaps the connection only while it is the root. -/
theorem rooted_of_along (rounds : ℕ → Round) (users : ℕ → List AuthID) (w : World)
    (es : List (Env × ℕ)) (h : Along (Swaps.step rounds users) SwapsAlone (.begin w) es) :
    Throughout (Swaps.step rounds users) Rooted (.begin w) es := by
  have hbegin : Undisturbed (.begin w) := by
    refine ⟨fun i => ⟨(fun h => by cases h), rfl⟩, ?_⟩
    rintro i connection ⟨⟩
  exact (invariant_along (I := Undisturbed)
    (fun _ e hundisturbed halone => undisturbed_step hundisturbed e halone)
    hbegin h).mono fun _ => Undisturbed.rooted

/-- Two starts of a round with one user, whose pieces run in the given order. -/
def startsInOrder (order : List ℕ) : List (Env × ℕ) := order.map fun i => (Env.faultless 10, i)

/-- Two starts, of which the second waits until the first is over. -/
theorem rooted_oneByOne :
    Throughout (Swaps.step (fun _ => roundOne) fun _ => [host]) Rooted (.begin .ready)
      (startsInOrder (List.replicate 12 0 ++ List.replicate 12 1)) :=
  rooted_of_along (fun _ => roundOne) (fun _ => [host]) .ready
    (startsInOrder (List.replicate 12 0 ++ List.replicate 12 1)) (by decide +kernel)

/-- The second start saves the transaction of the first one, and restores it when that is over. -/
def savesTransaction : List ℕ :=
  [0, 0, 0, 0, 1, 1, 1, 1, 0, 0, 1, 1, 0, 0, 0, 0, 0, 0, 1, 1, 1, 1, 1, 1]

/-- In the end both have returned, and the service is left at a transaction that is over. -/
theorem not_rooted :
    ¬ Throughout (Swaps.step (fun _ => roundOne) fun _ => [host]) Rooted (.begin .ready)
      (startsInOrder savesTransaction) := by
  intro h
  let last := run (Swaps.step (fun _ => roundOne) fun _ => [host]) (.begin .ready)
    (startsInOrder savesTransaction)
  have hfirst : (last.progress 0).point?.isNone = true := by decide +kernel
  have hsecond : (last.progress 1).point?.isNone = true := by decide +kernel
  have hconnection : last.shared.db = .tx 0 := by decide +kernel
  have hreturned : AllReturned last := by
    intro i
    match i with
    | 0 => exact Or.inl (Option.isNone_iff_eq_none.mp hfirst)
    | 1 => exact Or.inl (Option.isNone_iff_eq_none.mp hsecond)
    | i + 2 =>
      refine Or.inr (progress_run_of_ne _ (startsInOrder savesTransaction) _ fun e he => ?_)
      have hturn : e.2 < 2 := by
        revert e
        decide
      omega
  have hroot : last.shared.db = .root := h.last.restored hreturned
  rw [hconnection] at hroot
  cases hroot

end Bsg.Central
