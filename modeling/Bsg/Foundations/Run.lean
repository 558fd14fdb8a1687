import Mathlib.Data.List.Infix
import Mathlib.Tactic.Common

/-!
# Runs of a system

A system takes events one after another: `step s e` is the state after `e` happened in `s`, and
`run` the state after a list of events. The notions here are the usual ones about runs:

* `Along ok`: each event meets the condition `ok` in the state in which it happens;
* `Throughout P`: `P` holds in every state that the run reaches, the first and the last included;
* `Sometime ok`: an event of the run met the condition `ok` in the state in which it happened;
* `Since starts ends`: an event that starts something happened, and none that ends it since;
* `total f`: the sum of what `f` counts at each event;
* `answers take`: what a system that answers each event says along a run.

Each comes with its induction, so that a fact about runs is a fact about one step: `invariant_along`
(an invariant that allowed events keep), `throughout_iff_along` (a condition on events that is
exactly what keeps a property), `total_eq` (a count that a potential follows) and `answers_eq` (a
relation between two systems under which they answer alike).
-/

namespace Bsg.Foundations

section Run

variable {σ ε : Type} (step : σ → ε → σ)

/-- The state after a list of events. -/
def run (s : σ) (es : List ε) : σ := es.foldl step s

/-- Each event meets the condition in the state in which it happens. -/
def Along (ok : σ → ε → Prop) : σ → List ε → Prop
  | _, [] => True
  | s, e :: es => ok s e ∧ Along ok (step s e) es

/-- The property holds in every state that the run reaches. -/
def Throughout (P : σ → Prop) (s : σ) (es : List ε) : Prop :=
  ∀ es', es' <+: es → P (run step s es')

/-- An event of the run met the condition in the state in which it happened. -/
def Sometime (ok : σ → ε → Prop) (s : σ) (es : List ε) : Prop :=
  ∃ before e after, es = before ++ e :: after ∧ ok (run step s before) e

/-- An event of the first kind happened, and none of the second kind since. -/
def Since (starts ends : ε → Prop) (es : List ε) : Prop :=
  ∃ before e after, es = before ++ e :: after ∧ starts e ∧ ∀ e' ∈ after, ¬ ends e'

/-- The sum of what is counted at each event. -/
def total (f : σ → ε → ℕ) : σ → List ε → ℕ
  | _, [] => 0
  | s, e :: es => f s e + total f (step s e) es

instance decidableAlong (ok : σ → ε → Prop) [∀ s e, Decidable (ok s e)] :
    ∀ s es, Decidable (Along step ok s es)
  | _, [] => inferInstanceAs (Decidable True)
  | s, e :: es =>
    have := decidableAlong ok (step s e) es
    inferInstanceAs (Decidable (ok s e ∧ Along step ok (step s e) es))

/-- A run of no events stays where it is. -/
@[simp] theorem run_nil (s : σ) : run step s [] = s := rfl

/-- A run takes its first event, and goes on from there. -/
@[simp] theorem run_cons (s : σ) (e : ε) (es : List ε) :
    run step s (e :: es) = run step (step s e) es := rfl

/-- A run may be cut into two. -/
theorem run_append (s : σ) (es es' : List ε) :
    run step s (es ++ es') = run step (run step s es) es' := List.foldl_append

/-- The last event of a run. -/
theorem run_snoc (s : σ) (es : List ε) (e : ε) :
    run step s (es ++ [e]) = step (run step s es) e := by
  rw [run_append]
  rfl

/-- Nothing is asked of a run of no events. -/
@[simp] theorem along_nil (ok : σ → ε → Prop) (s : σ) : Along step ok s [] := trivial

/-- The condition holds of the first event in the first state, and along the rest. -/
@[simp] theorem along_cons (ok : σ → ε → Prop) (s : σ) (e : ε) (es : List ε) :
    Along step ok s (e :: es) ↔ ok s e ∧ Along step ok (step s e) es := Iff.rfl

/-- A run of no events adds up to nothing. -/
@[simp] theorem total_nil (f : σ → ε → ℕ) (s : σ) : total step f s [] = 0 := rfl

/-- The first event counts in the first state. -/
@[simp] theorem total_cons (f : σ → ε → ℕ) (s : σ) (e : ε) (es : List ε) :
    total step f s (e :: es) = f s e + total step f (step s e) es := rfl

/-- A run of no events has only its first state. -/
@[simp] theorem throughout_nil (P : σ → Prop) (s : σ) : Throughout step P s [] ↔ P s := by
  simp [Throughout]

/-- A property holds throughout when it holds now and throughout the rest. -/
@[simp] theorem throughout_cons (P : σ → Prop) (s : σ) (e : ε) (es : List ε) :
    Throughout step P s (e :: es) ↔ P s ∧ Throughout step P (step s e) es := by
  constructor
  · intro h
    refine ⟨h [] List.nil_prefix, fun es' h' => ?_⟩
    exact h (e :: es') (List.cons_prefix_cons.mpr ⟨rfl, h'⟩)
  · rintro ⟨hs, h⟩ es' h'
    cases es' with
    | nil => exact hs
    | cons e' es' =>
      obtain ⟨rfl, ht⟩ := List.cons_prefix_cons.mp h'
      exact h es' ht

variable {step}

/-- The last state is one that the run reaches. -/
theorem Throughout.last {P : σ → Prop} {s : σ} {es : List ε} (h : Throughout step P s es) :
    P (run step s es) := h es List.prefix_rfl

/-- A weaker property holds throughout as well. -/
theorem Throughout.mono {P Q : σ → Prop} (hPQ : ∀ s, P s → Q s) {s : σ} {es : List ε}
    (h : Throughout step P s es) : Throughout step Q s es := fun es' h' => hPQ _ (h es' h')

/-- A weaker condition holds along the run as well. -/
theorem Along.mono {ok ok' : σ → ε → Prop} (h : ∀ s e, ok s e → ok' s e) :
    ∀ {s : σ} {es : List ε}, Along step ok s es → Along step ok' s es
  | _, [], _ => trivial
  | _, _ :: _, ha => ⟨h _ _ ha.1, Along.mono h ha.2⟩

/-- A condition that every event meets is met along every run. -/
theorem Along.of_forall {ok : σ → ε → Prop} (h : ∀ s e, ok s e) :
    ∀ {s : σ} {es : List ε}, Along step ok s es
  | _, [] => trivial
  | _, _ :: _ => ⟨h _ _, Along.of_forall h⟩

/-- A condition on the events alone is met along a run of such events. -/
theorem Along.of_mem {p : ε → Prop} :
    ∀ {s : σ} {es : List ε}, (∀ e ∈ es, p e) → Along step (fun _ e => p e) s es
  | _, [], _ => trivial
  | _, _ :: _, h => ⟨h _ List.mem_cons_self, Along.of_mem fun e he => h e (List.mem_cons_of_mem _ he)⟩

/-- Two conditions hold along a run together. -/
theorem Along.and {ok ok' : σ → ε → Prop} :
    ∀ {s : σ} {es : List ε}, Along step ok s es → Along step ok' s es →
      Along step (fun s e => ok s e ∧ ok' s e) s es
  | _, [], _, _ => trivial
  | _, _ :: _, h, h' => ⟨⟨h.1, h'.1⟩, Along.and h.2 h'.2⟩

omit step in
/-- A list that ends with an event is cut in two at that event, or earlier. -/
theorem snoc_eq_append_cons {es before after : List ε} {e e' : ε}
    (h : es ++ [e] = before ++ e' :: after) :
    es = before ∧ e = e' ∧ after = [] ∨ ∃ rest, after = rest ++ [e] ∧ es = before ++ e' :: rest := by
  rcases List.eq_nil_or_concat after with rfl | ⟨rest, last, rfl⟩
  · obtain ⟨hes, he⟩ := List.append_inj' h rfl
    exact Or.inl ⟨hes, List.singleton_inj.mp he, rfl⟩
  · rw [List.concat_eq_append, ← List.cons_append, ← List.append_assoc] at h
    obtain ⟨hes, he⟩ := List.append_inj' h rfl
    obtain rfl := List.singleton_inj.mp he
    exact Or.inr ⟨rest, List.concat_eq_append, hes⟩

/-- What has happened by the end of a run happened before, or with the last event. -/
theorem sometime_snoc {ok : σ → ε → Prop} {s : σ} {es : List ε} {e : ε} :
    Sometime step ok s (es ++ [e]) ↔ Sometime step ok s es ∨ ok (run step s es) e := by
  constructor
  · rintro ⟨before, e', after, heq, hok⟩
    rcases snoc_eq_append_cons heq with ⟨rfl, rfl, -⟩ | ⟨rest, -, hes⟩
    · exact Or.inr hok
    · exact Or.inl ⟨before, e', rest, hes, hok⟩
  · rintro (⟨before, e', after, rfl, hok⟩ | hok)
    · exact ⟨before, e', after ++ [e], by simp, hok⟩
    · exact ⟨es, e, [], rfl, hok⟩

/-- What happens under a condition happens under a weaker one. -/
theorem Sometime.mono {ok ok' : σ → ε → Prop} (h : ∀ s e, ok s e → ok' s e) {s : σ} {es : List ε} :
    Sometime step ok s es → Sometime step ok' s es := by
  rintro ⟨before, e, after, heq, hok⟩
  exact ⟨before, e, after, heq, h _ e hok⟩

omit step in
/-- In an empty history nothing has begun. -/
theorem not_since_nil (starts ends : ε → Prop) : ¬ Since starts ends [] := by
  rintro ⟨before, e, after, heq, -⟩
  exact List.append_ne_nil_of_right_ne_nil before (List.cons_ne_nil e after) heq.symm

omit step in
/-- What goes on after the last event starts with it, or went on before and is not ended by it. -/
theorem since_snoc {starts ends : ε → Prop} {es : List ε} {e : ε} :
    Since starts ends (es ++ [e]) ↔ starts e ∨ Since starts ends es ∧ ¬ ends e := by
  constructor
  · rintro ⟨before, e', after, heq, hstarts, hnone⟩
    rcases snoc_eq_append_cons heq with ⟨rfl, rfl, -⟩ | ⟨rest, rfl, hes⟩
    · exact Or.inl hstarts
    · refine Or.inr ⟨⟨before, e', rest, hes, hstarts, fun e'' he'' => ?_⟩, ?_⟩
      · exact hnone e'' (List.mem_append_left _ he'')
      · exact hnone e (List.mem_append_right _ (List.mem_singleton_self e))
  · rintro (hstarts | ⟨⟨before, e', after, rfl, hstarts, hnone⟩, hnot⟩)
    · exact ⟨es, e, [], rfl, hstarts, fun e' he' => by cases he'⟩
    · refine ⟨before, e', after ++ [e], by simp, hstarts, fun e'' he'' => ?_⟩
      rcases List.mem_append.mp he'' with he'' | he''
      · exact hnone e'' he''
      · rwa [List.mem_singleton.mp he'']

/-- An invariant that every allowed event keeps holds in every state of a run of such events. -/
theorem invariant_along {I : σ → Prop} {ok : σ → ε → Prop}
    (keep : ∀ s e, I s → ok s e → I (step s e)) {s : σ} {es : List ε} (h0 : I s)
    (h : Along step ok s es) : Throughout step I s es := by
  induction es generalizing s with
  | nil => simpa using h0
  | cons e es ih =>
    rw [throughout_cons]
    exact ⟨h0, ih (keep s e h0 h.1) h.2⟩

/-- A preorder along which every event moves the state, as long as a property holds, leads from the
first state to the last of a run in which the property holds throughout. -/
theorem related_of_throughout {P : σ → Prop} {R : σ → σ → Prop} (refl : ∀ s, R s s)
    (trans : ∀ s t u, R s t → R t u → R s u)
    (move : ∀ s e, P s → P (step s e) → R s (step s e)) {s : σ} {es : List ε}
    (h : Throughout step P s es) : R s (run step s es) := by
  induction es generalizing s with
  | nil => exact refl s
  | cons e es ih =>
    rw [throughout_cons] at h
    have hnext : P (step s e) := h.2 [] List.nil_prefix
    exact trans s (step s e) _ (move s e h.1 hnext) (ih h.2)

/-- Two conditions on events are met along the same runs when allowed events meet both or neither in
every state with an invariant that they keep. -/
theorem along_congr {I : σ → Prop} {legal ok ok' : σ → ε → Prop}
    (keep : ∀ s e, I s → legal s e → I (step s e))
    (same : ∀ s e, I s → legal s e → (ok s e ↔ ok' s e)) {s : σ} {es : List ε} (hI : I s)
    (h : Along step legal s es) : Along step ok s es ↔ Along step ok' s es := by
  induction es generalizing s with
  | nil => exact Iff.rfl
  | cons e es ih =>
    rw [along_cons, along_cons, same s e hI h.1, ih (keep s e hI h.1) h.2]

/-- A condition on the events is exactly what keeps a property throughout a run, when it is so for
every single event from a state with the property. The invariant is what may be used for that. -/
theorem throughout_iff_along {I P : σ → Prop} {legal ok : σ → ε → Prop}
    (keep : ∀ s e, I s → legal s e → I (step s e))
    (exact : ∀ s e, I s → legal s e → P s → (P (step s e) ↔ ok s e)) {s : σ} {es : List ε}
    (hI : I s) (hP : P s) (h : Along step legal s es) :
    Throughout step P s es ↔ Along step ok s es := by
  induction es generalizing s with
  | nil => simpa using hP
  | cons e es ih =>
    rw [throughout_cons, along_cons]
    have hstep := exact s e hI h.1 hP
    constructor
    · rintro ⟨-, ht⟩
      have hP' : P (step s e) := ht [] List.nil_prefix
      exact ⟨hstep.mp hP', (ih (keep s e hI h.1) hP' h.2).mp ht⟩
    · rintro ⟨hok, ha⟩
      exact ⟨hP, (ih (keep s e hI h.1) (hstep.mpr hok) h.2).mpr ha⟩

/-- What is counted along a run is the growth of a potential that every single event follows. -/
theorem total_eq {I : σ → Prop} {ok : σ → ε → Prop} {f : σ → ε → ℕ} {Φ : σ → ℕ}
    (keep : ∀ s e, I s → ok s e → I (step s e))
    (follow : ∀ s e, I s → ok s e → Φ (step s e) = Φ s + f s e) {s : σ} {es : List ε}
    (hI : I s) (h : Along step ok s es) : Φ (run step s es) = Φ s + total step f s es := by
  induction es generalizing s with
  | nil => rfl
  | cons e es ih =>
    rw [run_cons, total_cons, ih (keep s e hI h.1) h.2, follow s e hI h.1, Nat.add_assoc]

/-- A potential that no single event raises by more than it counts for is raised by a run by no more
than what is counted along it. -/
theorem le_total {I : σ → Prop} {ok : σ → ε → Prop} {f : σ → ε → ℕ} {w : σ → ℕ}
    (keep : ∀ s e, I s → ok s e → I (step s e))
    (follow : ∀ s e, I s → ok s e → w (step s e) ≤ w s + f s e) {s : σ} {es : List ε}
    (hI : I s) (h : Along step ok s es) : w (run step s es) ≤ w s + total step f s es := by
  induction es generalizing s with
  | nil => exact le_rfl
  | cons e es ih =>
    rw [run_cons, total_cons, ← Nat.add_assoc]
    have hstep := follow s e hI h.1
    have hrest := ih (keep s e hI h.1) h.2
    exact hrest.trans (Nat.add_le_add_right hstep _)

/-- What a system that answers each event says to a list of events. -/
def answers {β : Type} (take : σ → ε → β × σ) : σ → List ε → List β
  | _, [] => []
  | s, e :: es => (take s e).1 :: answers take (take s e).2 es

/-- The state after a list of events that are answered. -/
abbrev after {β : Type} (take : σ → ε → β × σ) : σ → List ε → σ := run fun s e => (take s e).2

/-- The state after the first event, and then after the others. -/
@[simp] theorem after_cons {β : Type} (take : σ → ε → β × σ) (s : σ) (e : ε) (es : List ε) :
    after take s (e :: es) = after take (take s e).2 es := rfl

/-- The answers to two sequences are those to the first, and those to the second from where it left
off. -/
theorem answers_append {β : Type} (take : σ → ε → β × σ) : ∀ (s : σ) (es es' : List ε),
    answers take s (es ++ es') = answers take s es ++ answers take (after take s es) es'
  | _, [], _ => rfl
  | s, e :: es, es' => congrArg _ (answers_append take (take s e).2 es es')

/-- A translation of each answer translates the list of them. -/
theorem answers_map {β γ : Type} (h : β → γ) (take : σ → ε → β × σ) : ∀ (s : σ) (es : List ε),
    answers (fun s e => (h (take s e).1, (take s e).2)) s es = (answers take s es).map h
  | _, [] => rfl
  | s, e :: es => congrArg _ (answers_map h take (take s e).2 es)

/-- The answers to translated events are those of the step that translates first. -/
theorem answers_comp {β δ : Type} (g : δ → ε) (take : σ → ε → β × σ) : ∀ (s : σ) (ds : List δ),
    answers take s (ds.map g) = answers (fun s d => take s (g d)) s ds
  | _, [] => rfl
  | s, d :: ds => congrArg _ (answers_comp g take (take s (g d)).2 ds)

/-- So is the state after them. -/
theorem after_comp {β δ : Type} (g : δ → ε) (take : σ → ε → β × σ) (s : σ) (ds : List δ) :
    after take s (ds.map g) = after (fun s d => take s (g d)) s ds := List.foldl_map

/-- Every event has an answer. -/
@[simp] theorem length_answers {β : Type} (take : σ → ε → β × σ) : ∀ (s : σ) (es : List ε),
    (answers take s es).length = es.length
  | _, [] => rfl
  | s, e :: es => congrArg Nat.succ (length_answers take (take s e).2 es)

/-- Two systems give the same answers when each event that the second allows gets the same answer in
related states and leads to related states. -/
theorem answers_eq {τ β : Type} {f : σ → ε → β × σ} {g : τ → ε → β × τ} {R : σ → τ → Prop}
    {ok : τ → ε → Prop}
    (simulate : ∀ s t e, R s t → ok t e → (f s e).1 = (g t e).1 ∧ R (f s e).2 (g t e).2) :
    ∀ {s : σ} {t : τ} {es : List ε}, R s t → Along (fun t e => (g t e).2) ok t es →
      answers f s es = answers g t es
  | _, _, [], _, _ => rfl
  | s, t, e :: es, hR, h => by
    obtain ⟨hsame, hnext⟩ := simulate s t e hR h.1
    exact congrArg₂ List.cons hsame (answers_eq simulate hnext h.2)

/-- The same when every event is allowed. -/
theorem answers_eq_of_forall {τ β : Type} {f : σ → ε → β × σ} {g : τ → ε → β × τ} {R : σ → τ → Prop}
    (simulate : ∀ s t e, R s t → (f s e).1 = (g t e).1 ∧ R (f s e).2 (g t e).2) {s : σ} {t : τ}
    (hR : R s t) (es : List ε) : answers f s es = answers g t es :=
  answers_eq (fun s t e h _ => simulate s t e h) hR (Along.of_forall fun _ _ => trivial)

/-- Two systems end in related states when each event leads from related states to related ones. -/
theorem after_related {τ β γ : Type} {f : σ → ε → β × σ} {g : τ → ε → γ × τ} {R : σ → τ → Prop}
    (simulate : ∀ s t e, R s t → R (f s e).2 (g t e).2) :
    ∀ {s : σ} {t : τ}, R s t → ∀ es : List ε, R (after f s es) (after g t es)
  | _, _, hR, [] => hR
  | s, t, hR, e :: es => after_related simulate (simulate s t e hR) es

end Run

end Bsg.Foundations
