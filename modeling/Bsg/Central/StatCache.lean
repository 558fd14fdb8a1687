import Bsg.Central.ProblemSeeding
import Bsg.Foundations.Caching
import Bsg.Foundations.Interleave

/-!
# The cache of statistics

`FindProblemTagStats`, `FindProblemCompanyStats` and `FindProblemsForSelection` of
`services/problem.go` answer from a cache for five minutes, and ask the database after that. The
cache has a lock, but a request does not hold it while it asks the database. So requests run in
pieces (`findStat_inPieces`), and a request may store what was there before a seeding after another
request has stored what was there after it.

Still, every answer is what the database had at a moment that is at most five minutes ago, and as
much longer as a request takes between asking the database and storing the answer
(`findStat_recent`).
-/

namespace Bsg.Central

open Bsg.Foundations

/-! ## Model -/

/-- `ProblemListEntry` -/
structure ProblemListEntry where
  id : ℕ
  name : String
  slug : String
  deriving DecidableEq, Repr

/-- What is cached. -/
inductive StatKind
  | tagStats
  | companyStats
  | problemList
  deriving DecidableEq, Repr

/-- The rows of an answer. -/
abbrev StatKind.Rows : StatKind → Type
  | .tagStats => List ProblemTagStat
  | .companyStats => List ProblemCompanyStat
  | .problemList => List ProblemListEntry

/-- `problemStatCacheTTL`, in nanoseconds. -/
def problemStatCacheTTL : ℕ := 5 * 60 * 10^9

/-- The rows that a query returns, in its order; texts are ordered by the collation of the database.
-/
def StatKind.query (collate : String → String → Bool) : (kind : StatKind) → Named → kind.Rows
  | .tagStats, s => s.catalogue.tagStats.mergeSort fun row row' =>
      decide (row'.totalCount < row.totalCount) ||
        (decide (row'.totalCount = row.totalCount) && collate row.tag row'.tag)
  | .companyStats, s => s.catalogue.companyStats.mergeSort fun row row' =>
      decide (row'.totalCount < row.totalCount) ||
        (decide (row'.totalCount = row.totalCount) && collate row.company row'.company)
  | .problemList, s => ((s.problems.rows.filter fun p => !p.isPaid).map fun p =>
      (⟨p.id, s.name p.id, p.slug⟩ : ProblemListEntry)).mergeSort fun entry entry' =>
        collate entry.name entry'.name

/-- The database, the clock, and `problemStatCache`: what was stored last, and when. -/
structure StatState where
  now : ℕ
  named : Named
  cache : (kind : StatKind) → Option (kind.Rows × ℕ)

/-- A function of the problem service. -/
abbrev StatService (α : Type) := Call StatState GoError α

section Find

variable (collate : String → String → Bool) (kind : StatKind)

/-- What the cache answers: what was stored last, unless that is too long ago. -/
def StatState.cached (s : StatState) : Option kind.Rows :=
  (s.cache kind).bind fun (rows, storedAt) =>
    if s.now - storedAt < problemStatCacheTTL then some rows else none

/-- The state with rows stored in the cache. -/
def StatState.store (s : StatState) (rows : kind.Rows) : StatState :=
  { s with cache := Function.update s.cache kind (some (rows, s.now)) }

/-- The functions that are answered from the cache; the query may fail. -/
def findStat (fails : Bool) : StatService kind.Rows := do
  match ← Call.read fun s => s.cached kind with
  | some rows => pure rows
  | none => do
    let rows ← .io fails .io <| Call.read fun s => kind.query collate s.named
    Call.write fun s => s.store kind rows
    pure rows

end Find

/-- `FindProblemTagStats` -/
def findProblemTagStats (collate : String → String → Bool) (fails : Bool) :
    StatService (List ProblemTagStat) := findStat collate .tagStats fails

/-- `FindProblemCompanyStats` -/
def findProblemCompanyStats (collate : String → String → Bool) (fails : Bool) :
    StatService (List ProblemCompanyStat) := findStat collate .companyStats fails

/-- `FindProblemsForSelection` -/
def findProblemsForSelection (collate : String → String → Bool) (fails : Bool) :
    StatService (List ProblemListEntry) := findStat collate .problemList fails

/-! ## In pieces -/

/-- The points between which a request does not hold the lock: the cache did not answer, and the
database did. -/
inductive FindPoint (α : Type)
  | called
  | missed
  | queried (rows : α)

/-- The rows that a request has got from the database and not yet stored. -/
def FindPoint.carried {α : Type} : Progress (FindPoint α) GoError α → Option α
  | .running (.queried rows) => some rows
  | _ => none

section Pieces

variable (collate : String → String → Bool) (kind : StatKind)

/-- The pieces of a request. -/
def findPiece (fails : Bool) :
    FindPoint kind.Rows → StatService (FindPoint kind.Rows ⊕ kind.Rows)
  | .called => do
    match ← Call.read fun s => s.cached kind with
    | some rows => pure (.inr rows)
    | none => pure (.inl .missed)
  | .missed => do
    let rows ← .io fails .io <| Call.read fun s => kind.query collate s.named
    pure (.inl (.queried rows))
  | .queried rows => do
    Call.write fun s => s.store kind rows
    pure (.inr rows)

/-- A request that is not interrupted does what `findStat` does. -/
theorem findStat_inPieces (fails : Bool) (s : StatState) :
    (inOneGo (fun k => findPiece collate kind fails k) 3 .called).run s =
      (findStat collate kind fails >>= fun rows => pure (.inr rows)).run s := by
  unfold findStat
  rw [Call.run_bind_assoc, Call.run_read_bind]
  cases hcached : s.cached kind with
  | some rows =>
    refine inOneGo_inr ?_
    unfold findPiece
    rw [Call.run_read_bind, hcached]
    rfl
  | none =>
    have hmissed : (findPiece collate kind fails .called).run s = (.ok (.inl .missed), s) := by
      unfold findPiece
      rw [Call.run_read_bind, hcached]
      rfl
    rw [inOneGo_inl hmissed]
    cases fails with
    | true => rfl
    | false => rfl

end Pieces

/-- The service with the requests that it serves: any number for each kind. -/
structure StatSystem where
  shared : StatState
  requests : (kind : StatKind) → ℕ → Progress (FindPoint kind.Rows) GoError kind.Rows

/-- What can happen: time passes, something writes to the database, or a request runs a piece. -/
inductive StatEvent
  | pass (d : ℕ)
  | write (f : Named → Named)
  | find (kind : StatKind) (fails : Bool) (i : ℕ)

section System

variable (collate : String → String → Bool)

/-- The system after an event. -/
def StatSystem.step (s : StatSystem) : StatEvent → StatSystem
  | .pass d => { s with shared := { s.shared with now := s.shared.now + d } }
  | .write f => { s with shared := { s.shared with named := f s.shared.named } }
  | .find kind fails i =>
    let c := Concurrent.step (fun fails _ => findPiece collate kind fails)
      ⟨s.shared, s.requests kind⟩ (fails, i)
    ⟨c.shared, Function.update s.requests kind c.progress⟩

/-- An event answers a request of a kind. -/
def StatSystem.Answers (kind : StatKind) (s : StatSystem) (e : StatEvent) (rows : kind.Rows) : Prop :=
  ∃ i point, s.requests kind i = .running point ∧
    (s.step collate e).requests kind i = .returned (.ok rows)

/-- The service that has just been started. -/
def StatSystem.Starts (s : StatSystem) : Prop :=
  (∀ kind, s.shared.cache kind = none) ∧ ∀ kind i, s.requests kind i = .running .called

/-! ## Every answer is recent -/

variable {collate} {kind : StatKind}

/-- What a piece of a request does: it finds an answer or does not, it asks the database, or it
stores what it got. -/
theorem findPiece_cases (fails : Bool) (point : FindPoint kind.Rows) (s : StatState) :
    (∃ rows, s.cached kind = some rows ∧
        (findPiece collate kind fails point).run s = (.ok (.inr rows), s)) ∨
      (findPiece collate kind fails point).run s = (.ok (.inl .missed), s) ∨
      (findPiece collate kind fails point).run s =
        (.ok (.inl (.queried (kind.query collate s.named))), s) ∨
      (∃ e, (findPiece collate kind fails point).run s = (.err e, s)) ∨
      ∃ rows, point = .queried rows ∧
        (findPiece collate kind fails point).run s = (.ok (.inr rows), s.store kind rows) := by
  cases point with
  | called =>
    unfold findPiece
    rw [Call.run_read_bind]
    cases s.cached kind with
    | none => exact Or.inr (Or.inl rfl)
    | some rows => exact Or.inl ⟨rows, rfl, rfl⟩
  | missed =>
    cases fails with
    | true => exact Or.inr (Or.inr (Or.inr (Or.inl ⟨_, rfl⟩)))
    | false => exact Or.inr (Or.inr (Or.inl rfl))
  | queried rows => exact Or.inr (Or.inr (Or.inr (Or.inr ⟨rows, rfl, rfl⟩)))

/-- What is served from the cache was stored and has not expired. -/
theorem cached_eq_some {s : StatState} {rows : kind.Rows} (h : s.cached kind = some rows) :
    ∃ t, s.cache kind = some (rows, t) ∧ s.now < t + problemStatCacheTTL := by
  obtain ⟨⟨rows', t⟩, hcache, hfresh⟩ := Option.bind_eq_some_iff.mp h
  dsimp only at hfresh
  split at hfresh
  · rename_i hage
    cases hfresh
    exact ⟨t, hcache, by omega⟩
  · cases hfresh

/-- A request that has been answered does nothing more. -/
theorem step_find_returned {s : StatSystem} {fails : Bool} {i : ℕ} {o : Outcome GoError kind.Rows}
    (h : s.requests kind i = .returned o) : s.step collate (.find kind fails i) = s := by
  have hstay : Concurrent.step (fun fails _ => findPiece collate kind fails)
      ⟨s.shared, s.requests kind⟩ (fails, i) = ⟨s.shared, s.requests kind⟩ :=
    Concurrent.step_returned h
  unfold StatSystem.step
  dsimp only
  rw [hstay, Function.update_eq_self]

/-- A request that is served runs its next piece. -/
theorem step_find_running {s : StatSystem} {fails : Bool} {i : ℕ} {point : FindPoint kind.Rows}
    (h : s.requests kind i = .running point) : s.step collate (.find kind fails i) =
      ⟨((findPiece collate kind fails point).run s.shared).2,
        Function.update s.requests kind (Function.update (s.requests kind) i
          (.after ((findPiece collate kind fails point).run s.shared).1))⟩ := by
  unfold StatSystem.step Concurrent.step Progress.next
  dsimp only
  rw [h]

/-- A request takes no time while it runs a piece. -/
theorem now_step_find (s : StatSystem) (fails : Bool) (i : ℕ) :
    (s.step collate (.find kind fails i)).shared.now = s.shared.now := by
  cases hrequest : s.requests kind i with
  | returned o => rw [step_find_returned hrequest]
  | running point =>
    rw [step_find_running hrequest]
    rcases findPiece_cases fails point s.shared with ⟨rows, -, hrun⟩ | hrun | hrun | ⟨e, hrun⟩ |
      ⟨rows, -, hrun⟩
    · rw [hrun]
    · rw [hrun]
    · rw [hrun]
    · rw [hrun]
    · rw [hrun]
      rfl

/-- What a request carries after an event, it carried before, or has got from the database. -/
theorem carried_step (s : StatSystem) (e : StatEvent) (i : ℕ) (rows : kind.Rows)
    (h : FindPoint.carried ((s.step collate e).requests kind i) = some rows) :
    FindPoint.carried (s.requests kind i) = some rows ∨
      (kind.query collate s.shared.named = rows ∧ (s.step collate e).shared.now = s.shared.now) := by
  cases e with
  | pass d => exact Or.inl h
  | write f => exact Or.inl h
  | find kind' fails j =>
    rw [now_step_find]
    cases hrequest : s.requests kind' j with
    | returned o =>
      rw [step_find_returned hrequest] at h
      exact Or.inl h
    | running point =>
      rw [step_find_running hrequest] at h
      dsimp only at h
      -- Only the request that moves can come to carry something, and it reads the table now.
      obtain hkind | rfl := ne_or_eq kind kind'
      · rw [Function.update_of_ne hkind] at h
        exact Or.inl h
      obtain hother | rfl := ne_or_eq i j
      · rw [Function.update_self, Function.update_of_ne hother] at h
        exact Or.inl h
      rw [Function.update_self, Function.update_self] at h
      rcases findPiece_cases fails point s.shared with ⟨rows', -, hrun⟩ | hrun | hrun | ⟨e, hrun⟩ |
        ⟨rows', -, hrun⟩ <;> rw [hrun] at h
      · cases h
      · cases h
      · exact Or.inr ⟨Option.some.inj h, rfl⟩
      · cases h
      · cases h

/-- What is in the cache after an event was there before, or a request has stored it. -/
theorem cache_step (s : StatSystem) (e : StatEvent) (rows : kind.Rows) (t : ℕ)
    (h : (s.step collate e).shared.cache kind = some (rows, t)) :
    s.shared.cache kind = some (rows, t) ∨
      ∃ i, FindPoint.carried (s.requests kind i) = some rows ∧ t = s.shared.now := by
  cases e with
  | pass d => exact Or.inl h
  | write f => exact Or.inl h
  | find kind' fails j =>
    cases hrequest : s.requests kind' j with
    | returned o =>
      rw [step_find_returned hrequest] at h
      exact Or.inl h
    | running point =>
      rw [step_find_running hrequest] at h
      rcases findPiece_cases fails point s.shared with ⟨rows', -, hrun⟩ | hrun | hrun | ⟨e, hrun⟩ |
        ⟨rows', hpoint, hrun⟩ <;> rw [hrun] at h
      · exact Or.inl h
      · exact Or.inl h
      · exact Or.inl h
      · exact Or.inl h
      · -- The last piece stores what the request carries, with the time of now.
        obtain hkind | rfl := ne_or_eq kind kind'
        · refine Or.inl ?_
          have hcache : (s.shared.store kind' rows').cache kind = s.shared.cache kind :=
            Function.update_of_ne hkind _ _
          exact hcache.symm.trans h
        · have hcache : (s.shared.store kind rows').cache kind = some (rows', s.shared.now) :=
            Function.update_self _ _ _
          obtain ⟨rfl, rfl⟩ := Prod.mk.inj (Option.some.inj (hcache.symm.trans h))
          refine Or.inr ⟨j, ?_, rfl⟩
          rw [hrequest, hpoint]
          rfl

/-- An answer is what the cache has, and has not forgotten, or what the request has got. -/
theorem answers_cases (s : StatSystem) (e : StatEvent) (rows : kind.Rows)
    (h : s.Answers collate kind e rows) :
    (∃ t, s.shared.cache kind = some (rows, t) ∧ s.shared.now < t + problemStatCacheTTL) ∨
      ∃ i, FindPoint.carried (s.requests kind i) = some rows := by
  obtain ⟨i, point, hbefore, hafter⟩ := h
  cases e with
  | pass d =>
    rw [show (s.step collate (.pass d)).requests = s.requests from rfl, hbefore] at hafter
    cases hafter
  | write f =>
    rw [show (s.step collate (.write f)).requests = s.requests from rfl, hbefore] at hafter
    cases hafter
  | find kind' fails j =>
    cases hrequest : s.requests kind' j with
    | returned o =>
      rw [step_find_returned hrequest, hbefore] at hafter
      cases hafter
    | running point' =>
      rw [step_find_running hrequest] at hafter
      dsimp only at hafter
      obtain hkind | rfl := ne_or_eq kind kind'
      · rw [Function.update_of_ne hkind, hbefore] at hafter
        cases hafter
      obtain hother | rfl := ne_or_eq i j
      · rw [Function.update_self, Function.update_of_ne hother, hbefore] at hafter
        cases hafter
      rw [Function.update_self, Function.update_self] at hafter
      -- A request returns from the cache, or after it has stored what it carries.
      rcases findPiece_cases fails point' s.shared with ⟨rows', hcached, hrun⟩ | hrun | hrun |
        ⟨e, hrun⟩ | ⟨rows', rfl, hrun⟩ <;> rw [hrun] at hafter
      · cases hafter
        exact Or.inl (cached_eq_some hcached)
      · cases hafter
      · cases hafter
      · cases hafter
      · cases hafter
        refine Or.inr ⟨i, ?_⟩
        rw [hrequest]
        rfl

/-- The clock does not go back. -/
theorem now_step (s : StatSystem) (e : StatEvent) : s.shared.now ≤ (s.step collate e).shared.now := by
  cases e with
  | pass d => exact Nat.le_add_right _ _
  | write f => exact Nat.le_refl _
  | find kind fails i => rw [now_step_find]

variable (collate) (kind)

/-- The requests of a kind read the database through their part of the cache. -/
def StatSystem.caching : Caching (StatSystem.step collate) kind.Rows where
  ttl := problemStatCacheTTL
  now s := s.shared.now
  tells s rows := kind.query collate s.shared.named = rows
  kept s := s.shared.cache kind
  carried s i := FindPoint.carried (s.requests kind i)
  answers := StatSystem.Answers collate kind
  now_le := now_step
  carried_step s e i rows h := carried_step s e i rows h
  kept_step := cache_step
  answers_cases := answers_cases

/-- No request of a kind takes longer than this from asking the database to storing the answer. -/
def StatSystem.Prompt (delay : ℕ) (s : StatSystem) (es : List StatEvent) : Prop :=
  ∀ i rows es₁ es₂, es₁ <+: es₂ → es₂ <+: es →
    (run (StatSystem.step collate) s es₁).requests kind i = .running (.queried rows) →
      (run (StatSystem.step collate) s es₂).requests kind i = .running (.queried rows) →
        (run (StatSystem.step collate) s es₂).shared.now ≤
          (run (StatSystem.step collate) s es₁).shared.now + delay

/-- A call that carries rows has read them, and has not stored them yet. -/
theorem carried_eq_some {α : Type} {progress : Progress (FindPoint α) GoError α} {rows : α}
    (h : FindPoint.carried progress = some rows) : progress = .running (.queried rows) := by
  unfold FindPoint.carried at h
  split at h
  · cases h
    rfl
  · cases h

end System

/-- Along every run of the service since it was started, every answer is what the query of its kind
would have returned at a moment that is less than five minutes ago, and as much longer as a request
takes from asking the database to storing the answer. -/
theorem findStat_recent (collate : String → String → Bool) (kind : StatKind) (s : StatSystem)
    (hstarts : s.Starts) (es : List StatEvent) (delay : ℕ) (hprompt : s.Prompt collate kind delay es)
    (e : StatEvent) (rows : kind.Rows)
    (hanswer : (run (StatSystem.step collate) s es).Answers collate kind e rows) :
    ∃ es', es' <+: es ∧
      kind.query collate (run (StatSystem.step collate) s es').shared.named = rows ∧
        (run (StatSystem.step collate) s es).shared.now <
          (run (StatSystem.step collate) s es').shared.now + problemStatCacheTTL + delay := by
  have hbegins : (StatSystem.caching collate kind).Begins s :=
    ⟨hstarts.1 kind, fun i => by
      show FindPoint.carried (s.requests kind i) = none
      rw [hstarts.2 kind i]
      rfl⟩
  refine (StatSystem.caching collate kind).recent (by decide +kernel : 0 < problemStatCacheTTL)
    hbegins (fun i rows es₁ es₂ hbefore hafter hfirst hlast => ?_) hanswer
  exact hprompt i rows es₁ es₂ hbefore hafter (carried_eq_some hfirst) (carried_eq_some hlast)

/-- The service after its start, with two problems. -/
def StatSystem.ready : StatSystem :=
  ⟨⟨0, .twoProblems, fun _ => none⟩, fun _ _ => .running .called⟩

/-- A problem is paid for while a request carries the list of problems. -/
def writeBetween : List StatEvent :=
  [.find .problemList false 0, .find .problemList false 0,
    .write fun s => ⟨s.catalogue.withProblems (s.problems.modify 1 fun p => { p with isPaid := true }),
      s.name⟩,
    .pass 10, .find .problemList false 0]

/-- Another request is answered with the list as it was. -/
theorem findStat_writeBetween :
    ∃ es', es' <+: writeBetween ∧
      StatKind.problemList.query (fun a b => decide (a ≤ b))
        (run (StatSystem.step fun a b => decide (a ≤ b)) .ready es').shared.named =
          StatKind.problemList.query (fun a b => decide (a ≤ b)) .twoProblems ∧
        (run (StatSystem.step fun a b => decide (a ≤ b)) .ready writeBetween).shared.now <
          (run (StatSystem.step fun a b => decide (a ≤ b)) .ready es').shared.now +
            problemStatCacheTTL + 10 := by
  refine findStat_recent _ .problemList .ready ⟨fun _ => rfl, fun _ _ => rfl⟩ writeBetween 10
    (fun i rows es₁ es₂ _ hafter _ _ => ?_) (.find .problemList false 1) _ ⟨1, .called, rfl, ?_⟩
  · have hlast := (StatSystem.caching (fun a b => decide (a ≤ b)) .problemList).now_mono
      (s := .ready) hafter
    exact hlast.trans (Nat.le_add_left 10 _)
  · rfl

end Bsg.Central
