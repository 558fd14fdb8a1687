import Bsg.Foundations.Run
import Mathlib.Data.Nat.Notation

/-!
# Reading through a cache

Readers ask a source through a cache that forgets after some time. A reader whom the cache does not
answer asks the source, and stores the answer a while later; in between, the source may change and
other readers may run, so what is stored may be older than what was there.

`Caching` names the parts of such a system, with what each event may do to them. Then every answer
is what the source said at a moment that is not longer ago than the time after which the cache
forgets, together with the longest time that a reader takes to store what it got (`Caching.recent`).
When the source has said the same for so long, every answer is what it says now (`Caching.current`).
-/

namespace Bsg.Foundations

/-- A system whose readers ask a source through a cache. -/
structure Caching {σ ε : Type} (step : σ → ε → σ) (α : Type) where
  /-- How long the cache answers. -/
  ttl : ℕ
  /-- The clock. -/
  now : σ → ℕ
  /-- The source may say this. -/
  tells : σ → α → Prop
  /-- What the cache has, and since when. -/
  kept : σ → Option (α × ℕ)
  /-- What a reader has got from the source and not yet stored. -/
  carried : σ → ℕ → Option α
  /-- The event answers a reader. -/
  answers : σ → ε → α → Prop
  /-- Time does not run backwards. -/
  now_le : ∀ s e, now s ≤ now (step s e)
  /-- A reader gets something from the source, in no time. -/
  carried_step : ∀ s e i a, carried (step s e) i = some a →
    carried s i = some a ∨ (tells s a ∧ now (step s e) = now s)
  /-- The cache gets something from a reader. -/
  kept_step : ∀ s e a t, kept (step s e) = some (a, t) →
    kept s = some (a, t) ∨ ∃ i, carried s i = some a ∧ t = now s
  /-- The cache answers as long as it may, or the reader has got its answer from the source. -/
  answers_cases : ∀ s e a, answers s e a →
    (∃ t, kept s = some (a, t) ∧ now s < t + ttl) ∨ ∃ i, carried s i = some a

namespace Caching

variable {σ ε α : Type} {step : σ → ε → σ} (c : Caching step α) {s : σ} {es es' : List ε} {a : α}

/-- Nobody has asked the source yet. -/
structure Begins (s : σ) : Prop where
  kept : c.kept s = none
  carried : ∀ i, c.carried s i = none

/-- No reader takes longer than this to store what it got. -/
def Prompt (delay : ℕ) (s : σ) (es : List ε) : Prop :=
  ∀ i a es₁ es₂, es₁ <+: es₂ → es₂ <+: es → c.carried (run step s es₁) i = some a →
    c.carried (run step s es₂) i = some a →
      c.now (run step s es₂) ≤ c.now (run step s es₁) + delay

/-- Time does not run backwards along a run. -/
theorem now_mono (h : es <+: es') : c.now (run step s es) ≤ c.now (run step s es') := by
  obtain ⟨rest, rfl⟩ := h
  rw [run_append]
  generalize run step s es = t
  induction rest generalizing t with
  | nil => exact Nat.le_refl _
  | cons e rest ih => exact (c.now_le t e).trans (ih (step t e))

/-- What a reader carries, it got from the source at some moment, and has carried since. -/
theorem carried_since (h0 : ∀ i, c.carried s i = none) {i : ℕ}
    (h : c.carried (run step s es) i = some a) :
    ∃ es₁ e, es₁ ++ [e] <+: es ∧ c.tells (run step s es₁) a ∧
      c.carried (run step s (es₁ ++ [e])) i = some a ∧
        c.now (run step s (es₁ ++ [e])) = c.now (run step s es₁) := by
  induction es using List.reverseRecOn with
  | nil =>
    rw [run_nil, h0] at h
    cases h
  | append_singleton es e ih =>
    have hlast := h
    rw [run_snoc] at h
    rcases c.carried_step _ e i a h with hold | ⟨htells, hnow⟩
    · obtain ⟨es₁, e₁, hearlier, hrest⟩ := ih hold
      exact ⟨es₁, e₁, hearlier.trans (List.prefix_append es [e]), hrest⟩
    · exact ⟨es, e, List.prefix_rfl, htells, hlast, by rw [run_snoc, hnow]⟩

/-- What the cache has, a reader has stored. -/
theorem kept_since (h0 : c.kept s = none) {t : ℕ} (h : c.kept (run step s es) = some (a, t)) :
    ∃ es₁ i, es₁ <+: es ∧ c.carried (run step s es₁) i = some a ∧ t = c.now (run step s es₁) := by
  induction es using List.reverseRecOn with
  | nil =>
    rw [run_nil, h0] at h
    cases h
  | append_singleton es e ih =>
    rw [run_snoc] at h
    rcases c.kept_step _ e a t h with hold | ⟨i, hcarried, ht⟩
    · obtain ⟨es₁, i, hearlier, hrest⟩ := ih hold
      exact ⟨es₁, i, hearlier.trans (List.prefix_append es [e]), hrest⟩
    · exact ⟨es, i, List.prefix_append es [e], hcarried, ht⟩

/-- What a reader carries, the source said a short while ago. -/
theorem carried_recent {delay : ℕ} (h0 : c.Begins s) (hprompt : c.Prompt delay s es) {i : ℕ}
    (hearlier : es' <+: es) (h : c.carried (run step s es') i = some a) :
    ∃ es₁, es₁ <+: es' ∧ c.tells (run step s es₁) a ∧
      c.now (run step s es') ≤ c.now (run step s es₁) + delay := by
  obtain ⟨es₁, e, hbefore, htells, hcarried, hnow⟩ := c.carried_since h0.carried h
  refine ⟨es₁, (List.prefix_append es₁ [e]).trans hbefore, htells, ?_⟩
  rw [← hnow]
  exact hprompt i a _ es' hbefore hearlier hcarried h

/-- Every answer is what the source said not long ago. -/
theorem recent {delay : ℕ} (httl : 0 < c.ttl) (h0 : c.Begins s) (hprompt : c.Prompt delay s es)
    {e : ε} (h : c.answers (run step s es) e a) :
    ∃ es', es' <+: es ∧ c.tells (run step s es') a ∧
      c.now (run step s es) < c.now (run step s es') + c.ttl + delay := by
  rcases c.answers_cases _ e a h with ⟨t, hkept, hfresh⟩ | ⟨i, hcarried⟩
  · obtain ⟨es₁, i, hearlier, hcarried, rfl⟩ := c.kept_since h0.kept hkept
    obtain ⟨es₂, hbefore, htells, hnow⟩ := c.carried_recent h0 hprompt hearlier hcarried
    exact ⟨es₂, hbefore.trans hearlier, htells, by omega⟩
  · obtain ⟨es₁, hbefore, htells, hnow⟩ := c.carried_recent h0 hprompt List.prefix_rfl hcarried
    exact ⟨es₁, hbefore, htells, by omega⟩

/-- What the source has said for long enough is what every answer is. -/
theorem current {delay : ℕ} (httl : 0 < c.ttl) (h0 : c.Begins s) (hprompt : c.Prompt delay s es)
    {good : α → Prop} (hearlier : es' <+: es)
    (hlong : c.now (run step s es') + c.ttl + delay ≤ c.now (run step s es))
    (htells : ∀ es₁, es' <+: es₁ → es₁ <+: es → ∀ a, c.tells (run step s es₁) a → good a)
    {e : ε} (h : c.answers (run step s es) e a) : good a := by
  obtain ⟨es₁, hbefore, htold, hnow⟩ := c.recent httl h0 hprompt h
  rcases List.prefix_or_prefix_of_prefix hearlier hbefore with hafter | hearlier
  · exact htells es₁ hafter hbefore a htold
  · -- It was said before the source said the same for so long, which is too long ago.
    have hmono := c.now_mono (s := s) hearlier
    omega

end Caching

end Bsg.Foundations
