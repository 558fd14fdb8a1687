import Bsg.Foundations.Call
import Bsg.Foundations.Run
import Mathlib.Logic.Function.Basic
import Mathlib.Data.Nat.Notation

/-!
# Calls that run at the same time

Any number of calls share one state, and each of them runs in pieces: `piece x i k` is what call `i`
does at the point `k`, where `x` is what it meets outside. A piece goes on to another point
(`Sum.inl`) or returns (`Sum.inr`); an error or a panic ends the call. `Concurrent.step` lets one
call run its next piece, so a run of steps is an interleaving of the calls.

`Concurrent.forall_step` is the rule of local proofs: what holds of every call's progress is kept by
the call whose turn it is, and not disturbed for the others. `run_alone` says that a call none of
whose pieces is interrupted does what its pieces do in one go.
-/

namespace Bsg.Foundations

variable {σ κ ε α η : Type}

/-- How far a call has come. -/
inductive Progress (κ ε α : Type) where
  | running (k : κ)
  | returned (o : Outcome ε α)

/-- The point at which a call is that has not returned. -/
def Progress.point? : Progress κ ε α → Option κ
  | .running k => some k
  | .returned _ => none

/-- The call has returned without success. -/
def Progress.Failed : Progress κ ε α → Prop
  | .returned (.err _) | .returned .panic => True
  | _ => False

/-- How far a call has come when a piece of it ended. -/
def Progress.after : Outcome ε (κ ⊕ α) → Progress κ ε α
  | .ok (.inl k) => .running k
  | .ok (.inr a) => .returned (.ok a)
  | .err e => .returned (.err e)
  | .panic => .returned .panic

/-- What the next piece of a call makes of its progress and of the state. -/
def Progress.next (piece : κ → Call σ ε (κ ⊕ α)) : Progress κ ε α → σ → Progress κ ε α × σ
  | .running k, s => (.after ((piece k).run s).1, ((piece k).run s).2)
  | .returned o, s => (.returned o, s)

/-- A state that calls share, and how far each of them has come. -/
structure Concurrent (σ κ ε α : Type) where
  shared : σ
  progress : ℕ → Progress κ ε α

/-- The call whose turn it is runs its next piece. -/
def Concurrent.step (piece : η → ℕ → κ → Call σ ε (κ ⊕ α)) (c : Concurrent σ κ ε α)
    (e : η × ℕ) : Concurrent σ κ ε α where
  shared := ((c.progress e.2).next (piece e.1 e.2) c.shared).2
  progress := Function.update c.progress e.2 ((c.progress e.2).next (piece e.1 e.2) c.shared).1

/-- Runs at most `n` pieces of a call, with nothing in between. -/
def inOneGo (piece : κ → Call σ ε (κ ⊕ α)) : ℕ → κ → Call σ ε (κ ⊕ α)
  | 0, k => pure (.inl k)
  | n + 1, k => do
    match ← piece k with
    | .inl k' => inOneGo piece n k'
    | .inr a => pure (.inr a)

section InOneGo

variable {piece : κ → Call σ ε (κ ⊕ α)} {n : ℕ} {k : κ} {s t : σ}

/-- A piece that goes on is followed by the next one. -/
theorem inOneGo_inl {k' : κ} (h : (piece k).run s = (.ok (.inl k'), t)) :
    (inOneGo piece (n + 1) k).run s = (inOneGo piece n k').run t := Call.bind_ok h _

/-- A piece that returns ends the call. -/
theorem inOneGo_inr {a : α} (h : (piece k).run s = (.ok (.inr a), t)) :
    (inOneGo piece (n + 1) k).run s = (.ok (.inr a), t) := Call.bind_ok h _

/-- So does a piece that fails. -/
theorem inOneGo_err {e : ε} (h : (piece k).run s = (.err e, t)) :
    (inOneGo piece (n + 1) k).run s = (.err e, t) := Call.bind_err h _

/-- So does a piece that panics. -/
theorem inOneGo_panic (h : (piece k).run s = (.panic, t)) :
    (inOneGo piece (n + 1) k).run s = (.panic, t) := Call.bind_panic h _

/-- A piece that does not go on to another point is the last one. -/
theorem inOneGo_last (h : ∀ k', ((piece k).run s).1 ≠ .ok (.inl k')) :
    (inOneGo piece (n + 1) k).run s = (piece k).run s := by
  rcases hrun : (piece k).run s with ⟨(k' | a) | e | _, t⟩
  · rw [hrun] at h
    exact absurd rfl (h k')
  · exact inOneGo_inr hrun
  · exact inOneGo_err hrun
  · exact inOneGo_panic hrun

/-- A piece that ends by going on, in one go with those after it. -/
theorem inOneGo_then {β : Type} {x : Call σ ε β} {next : β → κ}
    (h : ∀ s, (piece k).run s = (x >>= fun b => pure (.inl (next b))).run s) (s : σ) :
    (inOneGo piece (n + 1) k).run s = (x >>= fun b => inOneGo piece n (next b)).run s := by
  rcases hx : x.run s with ⟨b | e | _, t⟩
  · rw [Call.bind_ok hx]
    exact inOneGo_inl (by rw [h, Call.bind_ok hx]; rfl)
  · rw [Call.bind_err hx]
    exact inOneGo_err (by rw [h, Call.bind_err hx])
  · rw [Call.bind_panic hx]
    exact inOneGo_panic (by rw [h, Call.bind_panic hx])

/-- A piece that ends by returning. -/
theorem inOneGo_return {β : Type} {x : Call σ ε β} {result : β → α}
    (h : ∀ s, (piece k).run s = (x >>= fun b => pure (.inr (result b))).run s) (s : σ) :
    (inOneGo piece (n + 1) k).run s = (x >>= fun b => pure (.inr (result b))).run s := by
  rw [← h]
  refine inOneGo_last fun k' hk' => ?_
  rw [h] at hk'
  rcases hx : x.run s with ⟨b | e | _, t⟩
  · rw [Call.bind_ok hx] at hk'
    cases hk'
  · rw [Call.bind_err hx] at hk'
    cases hk'
  · rw [Call.bind_panic hx] at hk'
    cases hk'

end InOneGo

section Step

variable {piece : η → ℕ → κ → Call σ ε (κ ⊕ α)} {c : Concurrent σ κ ε α} {e : η × ℕ} {k : κ}

/-- The state after a piece of a call that is at a point. -/
theorem Concurrent.shared_step (h : c.progress e.2 = .running k) :
    (c.step piece e).shared = ((piece e.1 e.2 k).run c.shared).2 := by
  unfold Concurrent.step
  rw [h]
  rfl

/-- A call that has returned does nothing more. -/
theorem Concurrent.step_returned {o : Outcome ε α} (h : c.progress e.2 = .returned o) :
    c.step piece e = c := by
  unfold Concurrent.step
  rw [h]
  show Concurrent.mk c.shared (Function.update c.progress e.2 (.returned o)) = c
  rw [← h, Function.update_eq_self]

/-- The call whose turn it is goes on by a piece. -/
theorem Concurrent.progress_step_self (h : c.progress e.2 = .running k) :
    (c.step piece e).progress e.2 = .after ((piece e.1 e.2 k).run c.shared).1 := by
  show Function.update c.progress e.2 _ e.2 = _
  rw [Function.update_self, h]
  rfl

/-- The other calls wait. -/
theorem Concurrent.progress_step_of_ne {i : ℕ} (h : i ≠ e.2) :
    (c.step piece e).progress i = c.progress i := Function.update_of_ne h _ _

/-- A call that has failed remains so. -/
theorem Concurrent.failed_step {i : ℕ} (h : (c.progress i).Failed) :
    ((c.step piece e).progress i).Failed := by
  obtain rfl | hne := eq_or_ne i e.2
  · cases hprogress : c.progress e.2 with
    | running k =>
      rw [hprogress] at h
      exact h.elim
    | returned o =>
      rw [Concurrent.step_returned hprogress]
      exact h
  · rw [Concurrent.progress_step_of_ne hne]
    exact h

/-- A call that runs a piece fails, or the piece ends well. -/
theorem Concurrent.failed_or_ok (h : c.progress e.2 = .running k) :
    ((c.step piece e).progress e.2).Failed ∨
      ∃ r s, (piece e.1 e.2 k).run c.shared = (.ok r, s) ∧ (c.step piece e).shared = s ∧
        (c.step piece e).progress e.2 = .after (.ok r) := by
  have hshared : (c.step piece e).shared = _ := Concurrent.shared_step h
  have hself : (c.step piece e).progress e.2 = _ := Concurrent.progress_step_self h
  rcases hrun : (piece e.1 e.2 k).run c.shared with ⟨r | err | _, s⟩
  · rw [hrun] at hshared hself
    exact Or.inr ⟨r, s, rfl, hshared, hself⟩
  · rw [hself, hrun]
    exact Or.inl trivial
  · rw [hself, hrun]
    exact Or.inl trivial

/-- What holds of every call holds after a step when it holds of the call whose turn it was, and is
not disturbed for the others. -/
theorem Concurrent.forall_step {R : ℕ → Progress κ ε α → Prop}
    (own : R e.2 ((c.progress e.2).next (piece e.1 e.2) c.shared).1)
    (others : ∀ i, i ≠ e.2 → R i (c.progress i)) : ∀ i, R i ((c.step piece e).progress i) := by
  intro i
  obtain rfl | h := eq_or_ne i e.2
  · show R e.2 (Function.update c.progress e.2 _ e.2)
    rw [Function.update_self]
    exact own
  · rw [Concurrent.progress_step_of_ne h]
    exact others i h

end Step

/-- A call whose turn it never is stays where it is. -/
theorem progress_run_of_ne (piece : η → ℕ → κ → Call σ ε (κ ⊕ α)) {i : ℕ} :
    ∀ (es : List (η × ℕ)) (c : Concurrent σ κ ε α), (∀ e ∈ es, i ≠ e.2) →
      (run (Concurrent.step piece) c es).progress i = c.progress i
  | [], _, _ => rfl
  | e :: es, c, h => by
    rw [run_cons, progress_run_of_ne piece es _ fun e he => h e (List.mem_cons_of_mem _ he)]
    exact Concurrent.progress_step_of_ne (h e List.mem_cons_self)

/-- Steps of a call that has returned do nothing. -/
theorem run_returned (piece : η → ℕ → κ → Call σ ε (κ ⊕ α)) (x : η) {i : ℕ} {o : Outcome ε α} :
    ∀ (n : ℕ) (c : Concurrent σ κ ε α), c.progress i = .returned o →
      run (Concurrent.step piece) c (List.replicate n (x, i)) = c
  | 0, _, _ => rfl
  | n + 1, c, h => by
    rw [List.replicate_succ, run_cons, Concurrent.step_returned h]
    exact run_returned piece x n c h

/-- Steps of one call in a row do what its pieces do in one go. -/
theorem run_alone (piece : η → ℕ → κ → Call σ ε (κ ⊕ α)) (x : η) {i : ℕ} :
    ∀ (n : ℕ) (c : Concurrent σ κ ε α) (k : κ), c.progress i = .running k →
      run (Concurrent.step piece) c (List.replicate n (x, i)) =
        ⟨((inOneGo (piece x i) n k).run c.shared).2,
          Function.update c.progress i (.after ((inOneGo (piece x i) n k).run c.shared).1)⟩
  | 0, c, k, h => by
    show c = ⟨c.shared, Function.update c.progress i (.running k)⟩
    rw [← h, Function.update_eq_self]
  | n + 1, c, k, h => by
    have hshared : (c.step piece (x, i)).shared = ((piece x i k).run c.shared).2 :=
      Concurrent.shared_step h
    have hself : (c.step piece (x, i)).progress i = .after ((piece x i k).run c.shared).1 :=
      Concurrent.progress_step_self h
    have hstep : c.step piece (x, i) = ⟨((piece x i k).run c.shared).2,
        Function.update c.progress i (.after ((piece x i k).run c.shared).1)⟩ := by
      unfold Concurrent.step
      rw [h]
      rfl
    rw [List.replicate_succ, run_cons]
    rcases hrun : (piece x i k).run c.shared with ⟨(k' | a) | e | _, s'⟩
    · -- The call goes on to another point.
      rw [hrun] at hself hshared hstep
      rw [run_alone piece x n _ k' hself, inOneGo_inl hrun, hstep]
      dsimp only
      rw [Function.update_idem]
    · rw [hrun] at hself hstep
      rw [run_returned piece x n _ hself, inOneGo_inr hrun, hstep]
    · rw [hrun] at hself hstep
      rw [run_returned piece x n _ hself, inOneGo_err hrun, hstep]
    · rw [hrun] at hself hstep
      rw [run_returned piece x n _ hself, inOneGo_panic hrun, hstep]

end Bsg.Foundations
