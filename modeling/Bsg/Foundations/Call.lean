import Mathlib.Logic.Basic
import Mathlib.Tactic.Common

/-!
# Calls with effects, errors and panics

A `Call σ ε α` is a procedure of an imperative language with errors as values: it reads and changes
a state `σ`, and it ends with a result, with an error, or by a panic. What it wrote before an error
or a panic stays written, unless it ran inside a `transaction`. Each operation on the outside (a
database, a cache, a socket) is an `io`, which a fault plan may make fail without effect.

Two rules carry proofs about calls. `bind_ok` and its companions run a call step by step. `Within R`
says that a call, however it ends, moves the state along a preorder `R`; it is closed under the
combinators, so a frame condition or an invariant of a long call follows from its writes.
-/

namespace Bsg.Foundations

/-- How a call ends: with a result, with an error, or by a panic. -/
inductive Outcome (ε α : Type) where
  | ok (a : α)
  | err (e : ε)
  | panic
  deriving DecidableEq, Repr

namespace Outcome

variable {ε α : Type}

/-- The result, when there is one. -/
def ok? : Outcome ε α → Option α
  | ok a => some a
  | _ => none

/-- What was returned. -/
@[simp] theorem ok?_ok (a : α) : (ok a : Outcome ε α).ok? = some a := rfl

/-- An error returns nothing. -/
@[simp] theorem ok?_err (e : ε) : (err e : Outcome ε α).ok? = none := rfl

/-- A panic returns nothing. -/
@[simp] theorem ok?_panic : (panic : Outcome ε α).ok? = none := rfl

end Outcome

/-- A procedure over the state `σ` with errors `ε` and results `α`. -/
structure Call (σ ε α : Type) where
  /-- Runs the procedure from a state. -/
  run : σ → Outcome ε α × σ

namespace Call

variable {σ ε α β : Type}

/-- Sequencing: an error or a panic of the first call ends the whole. -/
def bind (x : Call σ ε α) (f : α → Call σ ε β) : Call σ ε β where
  run s := match x.run s with
    | (.ok a, s') => (f a).run s'
    | (.err e, s') => (.err e, s')
    | (.panic, s') => (.panic, s')

instance : Monad (Call σ ε) where
  pure a := ⟨fun s => (.ok a, s)⟩
  bind := bind

/-- Ends with an error. -/
def fail (e : ε) : Call σ ε α := ⟨fun s => (.err e, s)⟩

/-- Ends by a panic. -/
def crash : Call σ ε α := ⟨fun s => (.panic, s)⟩

/-- Reads the state. -/
def read (f : σ → α) : Call σ ε α := ⟨fun s => (.ok (f s), s)⟩

/-- Changes the state. -/
def write (f : σ → σ) : Call σ ε Unit := ⟨fun s => (.ok (), f s)⟩

/-- Runs a call and hands its error to the caller as a value; a panic still ends the caller. -/
def attempt (x : Call σ ε α) : Call σ ε (Except ε α) where
  run s := match x.run s with
    | (.ok a, s') => (.ok (.ok a), s')
    | (.err e, s') => (.ok (.error e), s')
    | (.panic, s') => (.panic, s')

/-- Runs another call when the first one fails. -/
def orElse (x y : Call σ ε α) : Call σ ε α := do
  match ← x.attempt with
  | .ok a => pure a
  | .error _ => y

/-- An operation on the outside, which fails without effect when the fault plan says so. -/
def io (fails : Bool) (e : ε) (x : Call σ ε α) : Call σ ε α :=
  if fails then fail e else x

/-- Runs a call and, when it does not succeed, undoes its writes; `undo s s'` is what a rollback to
`s` makes of the state `s'`. -/
def transaction (undo : σ → σ → σ) (x : Call σ ε α) : Call σ ε α where
  run s := match x.run s with
    | (.ok a, s') => (.ok a, s')
    | (.err e, s') => (.err e, undo s s')
    | (.panic, s') => (.panic, undo s s')

/-- Runs a call for each element of a list, in order. -/
def forEach : List β → (β → Call σ ε Unit) → Call σ ε Unit
  | [], _ => pure ()
  | b :: bs, f => f b >>= fun _ => forEach bs f

/-! ## Running a call -/

/-- Returning a value leaves the state. -/
@[simp] theorem run_pure (a : α) (s : σ) : (pure a : Call σ ε α).run s = (.ok a, s) := rfl

/-- Failing leaves the state: nothing is rolled back and nothing is written. -/
@[simp] theorem run_fail (e : ε) (s : σ) : (fail e : Call σ ε α).run s = (.err e, s) := rfl

/-- A panic leaves the state. -/
@[simp] theorem run_crash (s : σ) : (crash : Call σ ε α).run s = (.panic, s) := rfl

/-- Reading leaves the state. -/
@[simp] theorem run_read (f : σ → α) (s : σ) : (read f : Call σ ε α).run s = (.ok (f s), s) := rfl

/-- Writing succeeds. -/
@[simp] theorem run_write (f : σ → σ) (s : σ) : (write f : Call σ ε Unit).run s = (.ok (), f s) :=
  rfl

/-- A sequence stops at the first error or panic, in the state that its part has left. -/
theorem run_bind (x : Call σ ε α) (f : α → Call σ ε β) (s : σ) :
    (x >>= f).run s = match x.run s with
      | (.ok a, s') => (f a).run s'
      | (.err e, s') => (.err e, s')
      | (.panic, s') => (.panic, s') := rfl

/-- After a first call that returns, the second runs from the state it left. -/
theorem bind_ok {x : Call σ ε α} {s t : σ} {a : α} (h : x.run s = (.ok a, t))
    (f : α → Call σ ε β) : (x >>= f).run s = (f a).run t := by
  rw [run_bind, h]

/-- After a first call that fails, nothing else runs. -/
theorem bind_err {x : Call σ ε α} {s t : σ} {e : ε} (h : x.run s = (.err e, t))
    (f : α → Call σ ε β) : (x >>= f).run s = (.err e, t) := by
  rw [run_bind, h]

/-- After a first call that panics, nothing else runs. -/
theorem bind_panic {x : Call σ ε α} {s t : σ} (h : x.run s = (.panic, t))
    (f : α → Call σ ε β) : (x >>= f).run s = (.panic, t) := by
  rw [run_bind, h]

/-- A sequence leaves the state of its first call when the second changes nothing. -/
theorem state_bind {x : Call σ ε α} {f : α → Call σ ε β} (hf : ∀ a s, ((f a).run s).2 = s) (s : σ) :
    ((x >>= f).run s).2 = (x.run s).2 := by
  rw [run_bind]
  rcases x.run s with ⟨a | _ | _, s'⟩
  · exact hf a s'
  · rfl
  · rfl

/-- What holds where the first call ends, and where the second one ends after it, holds where the
sequence ends. -/
theorem after_bind {Q : σ → Prop} {x : Call σ ε α} {f : α → Call σ ε β} {s : σ}
    (hx : Q (x.run s).2) (hf : ∀ a t, x.run s = (.ok a, t) → Q ((f a).run t).2) :
    Q ((x >>= f).run s).2 := by
  rw [run_bind]
  rcases hrun : x.run s with ⟨a | _ | _, t⟩
  · exact hf a t hrun
  · rwa [hrun] at hx
  · rwa [hrun] at hx

/-- An operation that returned did not fail. -/
theorem io_eq_ok {fails : Bool} {e : ε} {x : Call σ ε α} {s t : σ} {a : α}
    (h : (io fails e x).run s = (.ok a, t)) : fails = false ∧ x.run s = (.ok a, t) := by
  cases fails
  · exact ⟨rfl, h⟩
  · cases h

/-- A read that returned gave what is there. -/
theorem io_read_eq_ok {fails : Bool} {e : ε} {f : σ → α} {s t : σ} {a : α}
    (h : (io fails e (read f)).run s = (.ok a, t)) : fails = false ∧ f s = a ∧ s = t := by
  obtain ⟨hf, h⟩ := io_eq_ok h
  cases h
  exact ⟨hf, rfl, rfl⟩

/-- A sequence that returns is a first call that returns and a second that returns. -/
theorem bind_eq_ok {x : Call σ ε α} {f : α → Call σ ε β} {s t : σ} {b : β}
    (h : (x >>= f).run s = (.ok b, t)) :
    ∃ a s', x.run s = (.ok a, s') ∧ (f a).run s' = (.ok b, t) := by
  rw [run_bind] at h
  rcases hx : x.run s with ⟨_ | _ | _, s'⟩
  · rw [hx] at h
    exact ⟨_, _, rfl, h⟩
  · rw [hx] at h
    simp at h
  · rw [hx] at h
    simp at h

/-- A value is passed on. -/
@[simp] theorem run_pure_bind (a : α) (f : α → Call σ ε β) (s : σ) :
    ((pure a : Call σ ε α) >>= f).run s = (f a).run s := rfl

/-- Nothing runs after a failure. -/
@[simp] theorem run_fail_bind (e : ε) (f : α → Call σ ε β) (s : σ) :
    ((fail e : Call σ ε α) >>= f).run s = (.err e, s) := rfl

/-- Nothing runs after a panic. -/
@[simp] theorem run_crash_bind (f : α → Call σ ε β) (s : σ) :
    ((crash : Call σ ε α) >>= f).run s = (.panic, s) := rfl

/-- What was read is passed on. -/
@[simp] theorem run_read_bind (g : σ → α) (f : α → Call σ ε β) (s : σ) :
    ((read g : Call σ ε α) >>= f).run s = (f (g s)).run s := rfl

/-- What follows a write sees it. -/
@[simp] theorem run_write_bind (g : σ → σ) (f : Unit → Call σ ε β) (s : σ) :
    ((write g : Call σ ε Unit) >>= f).run s = (f ()).run (g s) := rfl

/-- Sequences may be grouped either way. -/
@[simp] theorem run_bind_assoc {γ : Type} (x : Call σ ε α) (f : α → Call σ ε β)
    (g : β → Call σ ε γ) (s : σ) :
    ((x >>= f) >>= g).run s = (x >>= fun a => f a >>= g).run s := by
  simp only [run_bind]
  rcases x.run s with ⟨_ | _ | _, s'⟩ <;> rfl

/-- Sequences that begin with the same call agree when what follows does. -/
theorem run_bind_congr (x : Call σ ε α) {f g : α → Call σ ε β}
    (h : ∀ a s, (f a).run s = (g a).run s) (s : σ) : (x >>= f).run s = (x >>= g).run s := by
  simp only [run_bind, h]

/-- An attempt turns an error into a value; a panic goes through it. -/
theorem run_attempt (x : Call σ ε α) (s : σ) :
    (attempt x).run s = match x.run s with
      | (.ok a, s') => (.ok (.ok a), s')
      | (.err e, s') => (.ok (.error e), s')
      | (.panic, s') => (.panic, s') := rfl

/-- The state after an attempt is that of the call. -/
theorem state_attempt (x : Call σ ε α) (s : σ) : ((attempt x).run s).2 = (x.run s).2 := by
  rw [run_attempt]
  rcases x.run s with ⟨_ | _ | _, s'⟩ <;> rfl

/-- A call that returns hands its result on. -/
theorem attempt_ok {x : Call σ ε α} {s t : σ} {a : α} (h : x.run s = (.ok a, t))
    (f : Except ε α → Call σ ε β) : (attempt x >>= f).run s = (f (.ok a)).run t := by
  rw [run_bind, run_attempt, h]

/-- A call that fails hands its error on. -/
theorem attempt_err {x : Call σ ε α} {s t : σ} {e : ε} (h : x.run s = (.err e, t))
    (f : Except ε α → Call σ ε β) : (attempt x >>= f).run s = (f (.error e)).run t := by
  rw [run_bind, run_attempt, h]

/-- A call that panics ends its caller. -/
theorem attempt_panic {x : Call σ ε α} {s t : σ} (h : x.run s = (.panic, t))
    (f : Except ε α → Call σ ε β) : (attempt x >>= f).run s = (.panic, t) := by
  rw [run_bind, run_attempt, h]

/-- A transaction undoes what its body did, unless the body returns. -/
theorem run_transaction (undo : σ → σ → σ) (x : Call σ ε α) (s : σ) :
    (transaction undo x).run s = match x.run s with
      | (.ok a, s') => (.ok a, s')
      | (.err e, s') => (.err e, undo s s')
      | (.panic, s') => (.panic, undo s s') := rfl

/-- An operation that does not fail goes on. -/
@[simp] theorem io_false (e : ε) (x : Call σ ε α) : io false e x = x := rfl

/-- An operation that fails ends the call. -/
@[simp] theorem io_true (e : ε) (x : Call σ ε α) : io true e x = fail e := rfl

/-- A branch runs the call that its condition chooses. -/
@[simp] theorem run_ite (c : Prop) [Decidable c] (x y : Call σ ε α) (s : σ) :
    (if c then x else y).run s = if c then x.run s else y.run s := by
  split <;> rfl

/-- A loop over nothing does nothing. -/
@[simp] theorem forEach_nil (f : β → Call σ ε Unit) : forEach [] f = pure () := rfl

/-- A loop runs its body on the first element, and then on the others. -/
@[simp] theorem forEach_cons (b : β) (bs : List β) (f : β → Call σ ε Unit) :
    forEach (b :: bs) f = f b >>= fun _ => forEach bs f := rfl

/-- A loop over calls that all return runs their effects in order. -/
theorem forEach_run {f : β → Call σ ε Unit} {g : σ → β → σ} :
    ∀ {bs : List β}, (∀ b ∈ bs, ∀ s, (f b).run s = (.ok (), g s b)) →
      ∀ s, (forEach bs f).run s = (.ok (), bs.foldl g s)
  | [], _, _ => rfl
  | b :: bs, h, s => by
    rw [forEach_cons, bind_ok (h b List.mem_cons_self s)]
    exact forEach_run (fun b' hb' => h b' (List.mem_cons_of_mem _ hb')) (g s b)

/-- A loop does not return when one of its calls never does. -/
theorem forEach_not_ok {f : β → Call σ ε Unit} {b : β} (hb : ∀ s t, (f b).run s ≠ (.ok (), t)) :
    ∀ {bs : List β}, b ∈ bs → ∀ s t, (forEach bs f).run s ≠ (.ok (), t)
  | b' :: bs, hmem, s, t => by
    intro hrun
    obtain ⟨_, s', hfirst, hrest⟩ := bind_eq_ok hrun
    rcases List.mem_cons.mp hmem with rfl | hmem
    · exact hb s s' hfirst
    · exact forEach_not_ok hb hmem s' t hrest

/-! ## Moving along a preorder -/

/-- However the call ends, it moves the state along `R`. -/
def Within (R : σ → σ → Prop) (x : Call σ ε α) : Prop := ∀ s, R s (x.run s).2

section Within

variable {R : σ → σ → Prop}

/-- A call that returns at once stays where it is. -/
theorem Within.pure (refl : ∀ s, R s s) (a : α) : Within R (Pure.pure a : Call σ ε α) :=
  fun s => refl s

/-- A call that fails at once stays where it is. -/
theorem Within.fail (refl : ∀ s, R s s) (e : ε) : Within R (fail e : Call σ ε α) :=
  fun s => refl s

/-- A call that panics at once stays where it is. -/
theorem Within.crash (refl : ∀ s, R s s) : Within R (crash : Call σ ε α) :=
  fun s => refl s

/-- A read stays where it is. -/
theorem Within.read (refl : ∀ s, R s s) (f : σ → α) : Within R (read f : Call σ ε α) :=
  fun s => refl s

/-- A write moves along `R` when its function does. -/
theorem Within.write {f : σ → σ} (h : ∀ s, R s (f s)) : Within R (write f : Call σ ε Unit) := h

/-- Two calls along `R` in sequence are along `R`. -/
theorem Within.bind (trans : ∀ s t u, R s t → R t u → R s u) {x : Call σ ε α}
    {f : α → Call σ ε β} (hx : Within R x) (hf : ∀ a, Within R (f a)) : Within R (x >>= f) := by
  intro s
  have h := hx s
  rw [run_bind]
  rcases hr : x.run s with ⟨_ | _ | _, s'⟩
  · rw [hr] at h
    exact trans _ _ _ h (hf _ s')
  · rwa [hr] at h
  · rwa [hr] at h

/-- Handing an error to the caller changes nothing else. -/
theorem Within.attempt {x : Call σ ε α} (hx : Within R x) : Within R (attempt x) := by
  intro s
  have h := hx s
  rw [run_attempt]
  rcases hr : x.run s with ⟨_ | _ | _, s'⟩ <;> rwa [hr] at h

/-- A call and the one that is run when it fails. -/
theorem Within.orElse (refl : ∀ s, R s s) (trans : ∀ s t u, R s t → R t u → R s u)
    {x y : Call σ ε α} (hx : Within R x) (hy : Within R y) : Within R (orElse x y) := by
  refine Within.bind trans hx.attempt fun result => ?_
  cases result with
  | ok a => exact Within.pure refl a
  | error e => exact hy

/-- An operation that may fail without effect. -/
theorem Within.io (refl : ∀ s, R s s) (fails : Bool) (e : ε) {x : Call σ ε α} (hx : Within R x) :
    Within R (io fails e x) := by
  cases fails
  · exact hx
  · exact Within.fail refl e

/-- Both branches along `R`. -/
theorem Within.ite (c : Prop) [Decidable c] {x y : Call σ ε α} (hx : Within R x)
    (hy : Within R y) : Within R (if c then x else y) := by
  split
  · exact hx
  · exact hy

/-- A transaction is along `R` when its body is and a rollback of the body is. -/
theorem Within.transaction {undo : σ → σ → σ} (hu : ∀ s t, R s t → R s (undo s t))
    {x : Call σ ε α} (hx : Within R x) : Within R (transaction undo x) := by
  intro s
  have h := hx s
  rw [run_transaction]
  rcases hr : x.run s with ⟨_ | _ | _, s'⟩
  · rwa [hr] at h
  · rw [hr] at h
    exact hu _ _ h
  · rw [hr] at h
    exact hu _ _ h

/-- A loop is along `R` when each of its rounds is. -/
theorem Within.forEach (refl : ∀ s, R s s) (trans : ∀ s t u, R s t → R t u → R s u)
    {f : β → Call σ ε Unit} : ∀ {bs : List β}, (∀ b ∈ bs, Within R (f b)) →
      Within R (forEach bs f)
  | [], _ => Within.pure refl ()
  | _ :: _, h => Within.bind trans (h _ List.mem_cons_self) fun _ =>
      Within.forEach refl trans fun b hb => h b (List.mem_cons_of_mem _ hb)

end Within

/-! ## Leaving a part of the state alone -/

/-- What `f` reads of the state is the same. -/
def Same {γ : Type} (f : σ → γ) (s s' : σ) : Prop := f s' = f s

/-- A state has its own part. -/
theorem Same.refl {γ : Type} (f : σ → γ) (s : σ) : Same f s s := rfl

/-- Parts that stay the same in two steps stay the same in both. -/
theorem Same.trans {γ : Type} (f : σ → γ) (s t u : σ) (h : Same f s t) (h' : Same f t u) :
    Same f s u := Eq.trans h' h

/-- However the call ends, it leaves what `f` reads of the state as it was. -/
def Keeps {γ : Type} (f : σ → γ) (x : Call σ ε α) : Prop := Within (Same f) x

section Keeps

variable {γ : Type} {f : σ → γ}

/-- Returning keeps every part. -/
theorem Keeps.pure (a : α) : Keeps f (Pure.pure a : Call σ ε α) := Within.pure (Same.refl f) a

/-- Failing keeps every part. -/
theorem Keeps.fail (e : ε) : Keeps f (fail e : Call σ ε α) := Within.fail (Same.refl f) e

/-- A panic keeps every part. -/
theorem Keeps.crash : Keeps f (crash : Call σ ε α) := Within.crash (Same.refl f)

/-- Reading keeps every part. -/
theorem Keeps.read (g : σ → α) : Keeps f (read g : Call σ ε α) := Within.read (Same.refl f) g

/-- A write keeps a part on which it agrees with the state before. -/
theorem Keeps.write {g : σ → σ} (h : ∀ s, f (g s) = f s) : Keeps f (write g : Call σ ε Unit) := h

/-- A sequence keeps what both its calls keep. -/
theorem Keeps.bind {x : Call σ ε α} {g : α → Call σ ε β} (hx : Keeps f x)
    (hg : ∀ a, Keeps f (g a)) : Keeps f (x >>= g) := Within.bind (Same.trans f) hx hg

/-- Sequences that begin by only looking at the state agree when what follows does in this state. -/
theorem Keeps.run_bind_congr {x : Call σ ε α} (hx : Keeps id x) {g g' : α → Call σ ε β} {s : σ}
    (h : ∀ a, (g a).run s = (g' a).run s) : (x >>= g).run s = (x >>= g').run s := by
  have hsame : (x.run s).2 = s := hx s
  rw [run_bind, run_bind]
  rcases hrun : x.run s with ⟨a | _ | _, s'⟩
  · rw [hrun] at hsame
    obtain rfl : s' = s := hsame
    exact h a
  · rfl
  · rfl

/-- An attempt keeps what the call keeps. -/
theorem Keeps.attempt {x : Call σ ε α} (hx : Keeps f x) : Keeps f (attempt x) := Within.attempt hx

/-- Two attempts keep what each of them keeps. -/
theorem Keeps.orElse {x y : Call σ ε α} (hx : Keeps f x) (hy : Keeps f y) :
    Keeps f (orElse x y) := Within.orElse (Same.refl f) (Same.trans f) hx hy

/-- Whether an operation fails does not matter for what is kept. -/
theorem Keeps.io (fails : Bool) (e : ε) {x : Call σ ε α} (hx : Keeps f x) :
    Keeps f (io fails e x) := Within.io (Same.refl f) fails e hx

/-- A branch keeps what both its calls keep. -/
theorem Keeps.ite (c : Prop) [Decidable c] {x y : Call σ ε α} (hx : Keeps f x) (hy : Keeps f y) :
    Keeps f (if c then x else y) := Within.ite c hx hy

/-- A loop keeps what its body keeps on every element. -/
theorem Keeps.forEach {g : β → Call σ ε Unit} {bs : List β} (h : ∀ b ∈ bs, Keeps f (g b)) :
    Keeps f (forEach bs g) := Within.forEach (Same.refl f) (Same.trans f) h

end Keeps

/-! ## Calls that never panic -/

/-- The call never panics. -/
def Calm (x : Call σ ε α) : Prop := ∀ s, (x.run s).1 ≠ .panic

/-- Returning does not panic. -/
theorem Calm.pure (a : α) : Calm (Pure.pure a : Call σ ε α) := fun _ h => by cases h

/-- Failing is not a panic. -/
theorem Calm.fail (e : ε) : Calm (fail e : Call σ ε α) := fun _ h => by cases h

/-- Reading does not panic. -/
theorem Calm.read (f : σ → α) : Calm (read f : Call σ ε α) := fun _ h => by cases h

/-- Writing does not panic. -/
theorem Calm.write (f : σ → σ) : Calm (write f : Call σ ε Unit) := fun _ h => by cases h

/-- A sequence does not panic when its first call does not, and the second never does. -/
theorem bind_ne_panic {x : Call σ ε α} {f : α → Call σ ε β} {s : σ}
    (hx : (x.run s).1 ≠ .panic) (hf : ∀ a, Calm (f a)) : ((x >>= f).run s).1 ≠ .panic := by
  rw [run_bind]
  rcases hr : x.run s with ⟨_ | _ | _, s'⟩
  · exact hf _ s'
  · simp
  · rw [hr] at hx
    exact absurd rfl hx

/-- Two calls in sequence never panic when neither does. -/
theorem Calm.bind {x : Call σ ε α} {f : α → Call σ ε β} (hx : Calm x) (hf : ∀ a, Calm (f a)) :
    Calm (x >>= f) := fun s => bind_ne_panic (hx s) hf

/-- An attempt panics only when the call does. -/
theorem Calm.attempt {x : Call σ ε α} (hx : Calm x) : Calm (attempt x) := by
  intro s
  have h := hx s
  rw [run_attempt]
  rcases hr : x.run s with ⟨_ | _ | _, s'⟩
  · simp
  · simp
  · rw [hr] at h
    exact absurd rfl h

/-- A failing operation is not a panic. -/
theorem Calm.io (fails : Bool) (e : ε) {x : Call σ ε α} (hx : Calm x) : Calm (io fails e x) := by
  cases fails
  · exact hx
  · exact Calm.fail e

/-- A branch does not panic when neither call does. -/
theorem Calm.ite (c : Prop) [Decidable c] {x y : Call σ ε α} (hx : Calm x) (hy : Calm y) :
    Calm (if c then x else y) := by
  split
  · exact hx
  · exact hy

/-- A loop does not panic when its body does not on any element. -/
theorem Calm.forEach {f : β → Call σ ε Unit} : ∀ {bs : List β}, (∀ b ∈ bs, Calm (f b)) →
    Calm (forEach bs f)
  | [], _ => Calm.pure ()
  | _ :: _, h => Calm.bind (h _ List.mem_cons_self) fun _ =>
      Calm.forEach fun b hb => h b (List.mem_cons_of_mem _ hb)

/-- A call that neither returns nor panics fails. -/
theorem Calm.fails {x : Call σ ε α} (h : Calm x) {s : σ} (hok : ∀ a t, x.run s ≠ (.ok a, t)) :
    ∃ e t, x.run s = (.err e, t) := by
  rcases hr : x.run s with ⟨a | e | _, t⟩
  · exact absurd hr (hok a t)
  · exact ⟨e, t, rfl⟩
  · exact absurd (congrArg Prod.fst hr) (h s)

/-! ## The results of a call -/

/-- Every result of the call satisfies `p`. -/
def Yields (p : α → Prop) (x : Call σ ε α) : Prop := ∀ s a, (x.run s).1 = .ok a → p a

section Yields

variable {p : α → Prop}

/-- A value that has the property. -/
theorem Yields.pure {a : α} (h : p a) : Yields p (Pure.pure a : Call σ ε α) := by
  rintro s a' ⟨⟩
  exact h

/-- A failure returns no value. -/
theorem Yields.fail (e : ε) : Yields p (fail e : Call σ ε α) := fun _ _ h => by cases h

/-- The results of a sequence are those of its second call. -/
theorem Yields.bind {x : Call σ ε β} {f : β → Call σ ε α} (hf : ∀ b, Yields p (f b)) :
    Yields p (x >>= f) := by
  intro s a
  rw [run_bind]
  rcases x.run s with ⟨b | _ | _, s'⟩
  · exact hf b s' a
  · simp
  · simp

/-- A branch returns what one of its calls returns. -/
theorem Yields.ite (c : Prop) [Decidable c] {x y : Call σ ε α} (hx : Yields p x)
    (hy : Yields p y) : Yields p (if c then x else y) := by
  split
  · exact hx
  · exact hy

/-- What follows a call needs to leave a part of the state alone for the results of the call
only. -/
theorem Keeps.bind_of_yields {γ : Type} {f : σ → γ} {x : Call σ ε α} {g : α → Call σ ε β}
    (hx : Keeps f x) (hp : Yields p x) (hg : ∀ a, p a → Keeps f (g a)) : Keeps f (x >>= g) := by
  intro s
  have hsame : f (x.run s).2 = f s := hx s
  show f ((x >>= g).run s).2 = f s
  rcases hrun : x.run s with ⟨a | e | _, s'⟩
  · rw [hrun] at hsame
    have hrest : f ((g a).run s').2 = f s' := hg a (hp s a (congrArg Prod.fst hrun)) s'
    rw [bind_ok hrun]
    exact hrest.trans hsame
  · rw [hrun] at hsame
    rw [bind_err hrun]
    exact hsame
  · rw [hrun] at hsame
    rw [bind_panic hrun]
    exact hsame

end Yields

/-! ## The errors of a call -/

/-- Every error of the call satisfies `p`. -/
def Raises (p : ε → Prop) (x : Call σ ε α) : Prop := ∀ s e, (x.run s).1 = .err e → p e

section Raises

variable {p : ε → Prop}

/-- Returning raises nothing. -/
theorem Raises.pure (a : α) : Raises p (Pure.pure a : Call σ ε α) := fun _ _ h => by cases h

/-- An error that has the property. -/
theorem Raises.fail {e : ε} (h : p e) : Raises p (fail e : Call σ ε α) := by
  rintro s e' ⟨⟩
  exact h

/-- A panic is not an error. -/
theorem Raises.crash : Raises p (crash : Call σ ε α) := fun _ _ h => by cases h

/-- Reading raises nothing. -/
theorem Raises.read (f : σ → α) : Raises p (read f : Call σ ε α) := fun _ _ h => by cases h

/-- Writing raises nothing. -/
theorem Raises.write (f : σ → σ) : Raises p (write f : Call σ ε Unit) := fun _ _ h => by cases h

/-- The errors of two calls in sequence. -/
theorem Raises.bind {x : Call σ ε α} {f : α → Call σ ε β} (hx : Raises p x)
    (hf : ∀ a, Raises p (f a)) : Raises p (x >>= f) := by
  intro s e
  have h := hx s
  rw [run_bind]
  rcases hr : x.run s with ⟨_ | _ | _, s'⟩
  · exact hf _ s' e
  · rw [hr] at h
    rintro ⟨⟩
    exact h _ rfl
  · simp

/-- An error that neither of two calls in sequence ends with. -/
theorem bind_ne_err {x : Call σ ε α} {f : α → Call σ ε β} {s : σ} {e : ε}
    (hx : (x.run s).1 ≠ .err e)
    (hf : ∀ a s', x.run s = (.ok a, s') → ((f a).run s').1 ≠ .err e) :
    ((x >>= f).run s).1 ≠ .err e := by
  rcases hrun : x.run s with ⟨a | e' | _, s'⟩
  · rw [bind_ok hrun]
    exact hf a s' hrun
  · rw [hrun] at hx
    rw [bind_err hrun]
    rintro ⟨⟩
    exact hx rfl
  · rw [bind_panic hrun]
    simp

/-- A call whose errors are handed on has none. -/
theorem Raises.attempt (x : Call σ ε α) : Raises p (attempt x) := by
  intro s e
  rw [run_attempt]
  rcases x.run s with ⟨_ | _ | _, s'⟩ <;> simp

/-- An operation raises its own error, or what follows it does. -/
theorem Raises.io (fails : Bool) {e : ε} (h : p e) {x : Call σ ε α} (hx : Raises p x) :
    Raises p (io fails e x) := by
  cases fails
  · exact hx
  · exact Raises.fail h

/-- A branch raises what one of its calls raises. -/
theorem Raises.ite (c : Prop) [Decidable c] {x y : Call σ ε α} (hx : Raises p x)
    (hy : Raises p y) : Raises p (if c then x else y) := by
  split
  · exact hx
  · exact hy

/-- A transaction passes the errors of its body on. -/
theorem Raises.transaction (undo : σ → σ → σ) {x : Call σ ε α} (hx : Raises p x) :
    Raises p (transaction undo x) := by
  intro s e
  have h := hx s
  rw [run_transaction]
  rcases hr : x.run s with ⟨_ | _ | _, s'⟩
  · simp
  · rw [hr] at h
    rintro ⟨⟩
    exact h _ rfl
  · simp

/-- The errors of a loop are those of its rounds. -/
theorem Raises.forEach {f : β → Call σ ε Unit} : ∀ {bs : List β}, (∀ b ∈ bs, Raises p (f b)) →
    Raises p (forEach bs f)
  | [], _ => Raises.pure ()
  | b :: _, h => Raises.bind (h b List.mem_cons_self) fun _ =>
      Raises.forEach fun b' hb' => h b' (List.mem_cons_of_mem _ hb')

/-- A call without errors returns when it does not panic. -/
theorem Raises.returns {x : Call σ ε α} {s : σ} (h : Raises (fun _ => False) x)
    (hp : (x.run s).1 ≠ .panic) : ∃ a t, x.run s = (.ok a, t) := by
  rcases hr : x.run s with ⟨a | e | _, t⟩
  · exact ⟨a, t, rfl⟩
  · exact (h s e (by rw [hr])).elim
  · rw [hr] at hp
    exact absurd rfl hp

end Raises

/-! ## Calls that always return -/

/-- The call returns a result from every state. -/
def Returns (x : Call σ ε α) : Prop := ∀ s, ∃ a t, x.run s = (.ok a, t)

/-- Returning returns. -/
theorem Returns.pure (a : α) : Returns (Pure.pure a : Call σ ε α) := fun s => ⟨a, s, rfl⟩

/-- Reading returns. -/
theorem Returns.read (f : σ → α) : Returns (read f : Call σ ε α) := fun s => ⟨f s, s, rfl⟩

/-- Writing returns. -/
theorem Returns.write (f : σ → σ) : Returns (write f : Call σ ε Unit) := fun s => ⟨(), f s, rfl⟩

/-- A sequence of calls that return returns. -/
theorem Returns.bind {x : Call σ ε α} {f : α → Call σ ε β} (hx : Returns x)
    (hf : ∀ a, Returns (f a)) : Returns (x >>= f) := by
  intro s
  obtain ⟨a, s', h⟩ := hx s
  obtain ⟨b, t, h'⟩ := hf a s'
  exact ⟨b, t, (bind_ok h f).trans h'⟩

/-- A branch of calls that return returns. -/
theorem Returns.ite (c : Prop) [Decidable c] {x y : Call σ ε α} (hx : Returns x)
    (hy : Returns y) : Returns (if c then x else y) := by
  split
  · exact hx
  · exact hy

end Call

end Bsg.Foundations
