import Bsg.Central.Store
import Mathlib.Data.List.DropRight

/-!
# Selecting problems

The parts of `services/problem.go` that choose the problems of a round: the filters that a request
describes (tags, companies, curated lists, recency, paid problems), and the three ways to a problem
set: hand-picked (`findProblemsByIDs`), any difficulty (`generateProblemsetAnyDifficulty`) and by
difficulty (`generateProblemsetByDifficultyParameters`), the last two with a fallback that drops
recency, and in the last case difficulty, when there are not enough problems.

`LIKE` is the operator of PostgreSQL on a list of characters. Changing the case of a letter is left
to the environment, once for `strings.ToLower` and once for `LOWER`.
-/

namespace Bsg.Central

open Bsg.Foundations

/-- `recentlyAskedWindows` -/
def recentlyAskedWindows : List String := ["ThirtyDays", "ThreeMonths", "SixMonths"]

/-- `unicode.IsSpace` -/
def isSpace (c : Char) : Bool :=
  let n := c.toNat
  (9 ≤ n && n ≤ 13) || n == 32 || n == 0x85 || n == 0xa0 || n == 0x1680 ||
    (0x2000 ≤ n && n ≤ 0x200a) || n == 0x2028 || n == 0x2029 || n == 0x202f || n == 0x205f ||
    n == 0x3000

/-- `strings.TrimSpace` -/
def trimSpace (s : List Char) : List Char :=
  ((s.dropWhile isSpace).reverse.dropWhile isSpace).reverse

/-- White space is all that trimming takes away. -/
theorem mem_trimSpace {c : Char} (hc : isSpace c = false) {cs : List Char} :
    c ∈ trimSpace cs ↔ c ∈ cs := by
  have hdrop : ∀ {l : List Char}, c ∈ l.dropWhile isSpace ↔ c ∈ l := by
    intro l
    constructor
    · exact fun hmem => (List.dropWhile_suffix isSpace).subset hmem
    · intro hmem
      rw [← List.takeWhile_append_dropWhile (p := isSpace) (l := l)] at hmem
      refine (List.mem_append.mp hmem).resolve_left fun htake => ?_
      rw [List.all_eq_true.mp List.all_takeWhile c htake] at hc
      cases hc
  unfold trimSpace
  rw [List.mem_reverse, hdrop, List.mem_reverse, hdrop]

/-- What is trimmed has no white space around it. -/
theorem trimSpace_trimSpace (cs : List Char) : trimSpace (trimSpace cs) = trimSpace cs := by
  have hfirst : (trimSpace cs).dropWhile isSpace = trimSpace cs := by
    have hprefix : trimSpace cs <+: cs.dropWhile isSpace := List.rdropWhile_prefix isSpace _
    rw [List.dropWhile_eq_self_iff]
    intro hlen
    obtain ⟨rest, hrest⟩ := hprefix
    have hne : trimSpace cs ≠ [] := List.ne_nil_of_length_pos hlen
    have hhead := List.head_dropWhile_not isSpace (l := cs) (by rw [← hrest]; simp [hne])
    simp only [← hrest, List.head_append_of_ne_nil hne] at hhead
    simpa [List.head_eq_getElem] using hhead
  have hlast : (trimSpace cs).reverse.dropWhile isSpace = (trimSpace cs).reverse := by
    unfold trimSpace
    rw [List.reverse_reverse, List.dropWhile_idempotent]
  rw [trimSpace.eq_1 (trimSpace cs), hfirst, hlast, List.reverse_reverse]

/-- `normalizeTags`: trimmed, without empty ones. -/
def normalizeTags (tags : List String) : List (List Char) :=
  (tags.map fun tag => trimSpace tag.toList).filter fun tag => !tag.isEmpty

/-- `escapeLikePattern`: the first pair that fits at a place is replaced. -/
def escapeLikePattern : List Char → List Char
  | '\\' :: '\\' :: cs => '\\' :: '\\' :: '\\' :: '\\' :: escapeLikePattern cs
  | '%' :: cs => '\\' :: '\\' :: '%' :: escapeLikePattern cs
  | '_' :: cs => '\\' :: '\\' :: '_' :: escapeLikePattern cs
  | c :: cs => c :: escapeLikePattern cs
  | [] => []

/-- What may be left of a text when a pattern has matched its beginning. -/
def likeRest : List Char → List Char → List (List Char)
  | [], text => [text]
  | '%' :: pattern, text => text.tails.flatMap (likeRest pattern)
  | '_' :: pattern, text =>
    match text with
    | [] => []
    | _ :: text => likeRest pattern text
  | '\\' :: c :: pattern, text =>
    match text with
    | [] => []
    | c' :: text => if c = c' then likeRest pattern text else []
  | c :: pattern, text =>
    match text with
    | [] => []
    | c' :: text => if c = c' then likeRest pattern text else []

/-- `text LIKE pattern` -/
def like (text pattern : List Char) : Bool := (likeRest pattern text).any List.isEmpty

/-- The pattern for a quoted word in a JSON list. -/
def quotedPattern (word : List Char) : List Char := '%' :: '"' :: (word ++ ['"', '%'])

/-- The column that holds a list of texts as JSON. -/
def jsonColumn (items : List String) : List Char := Json.render (.arr (items.map Json.text))

/-- The filters of a request for problems. -/
structure ProblemFilter where
  tags : List String
  companies : List String
  blind75 : Bool
  neetCode150 : Bool
  recentlyAsked : Bool
  excludePaid : Bool
  deriving DecidableEq, Repr

namespace ProblemFilter

variable (env : Env) (db : DB) (filter : ProblemFilter) (p : Problem)

/-- `applyPaidFilter` -/
def paid : Bool := !filter.excludePaid || !p.isPaid

/-- `applyTagFilters` -/
def tagged : Bool :=
  let tags := normalizeTags filter.tags
  tags.isEmpty || tags.any fun tag =>
    like ((jsonColumn p.tags).map env.sqlLower)
      (quotedPattern ((escapeLikePattern tag).map env.goLower))

/-- The company tag is one of the problem and of a company asked for. -/
def ofCompany (t : ProblemCompanyTag) : Bool :=
  decide (t.problemID = p.id) &&
    ((normalizeTags filter.companies).map fun c => c.map env.goLower).contains
      (t.company.toList.map env.sqlLower)

/-- `applyCompanyFilters` -/
def company : Bool :=
  (normalizeTags filter.companies).isEmpty || db.companyTags.any (filter.ofCompany env p)

/-- `applyProblemListFilters` -/
def listed : Bool :=
  if !filter.blind75 && !filter.neetCode150 then true
  else if filter.blind75 && filter.neetCode150 then p.isBlind75 || p.isNeetCode150
  else if filter.blind75 then p.isBlind75
  else p.isNeetCode150

/-- `applyRecentlyAskedFilter` -/
def recent : Bool :=
  !filter.recentlyAsked || (normalizeTags filter.companies).isEmpty ||
    db.companyTags.any fun t => filter.ofCompany env p t &&
      recentlyAskedWindows.any fun window =>
        like (jsonColumn t.windows) (quotedPattern window.toList)

/-- The filters that are never dropped. -/
def strict : Bool :=
  filter.paid p && filter.tagged env p && filter.company env db p && filter.listed p

end ProblemFilter

/-- A LIMIT clause; a negative limit is none. -/
def limit {α : Type} (n : ℤ) (l : List α) : List α := if n < 0 then l else l.take n.toNat

/-- A query for problems in random order, with a condition and a limit. -/
def findProblems (env : Env) (k : ℕ) (n : ℤ) (p : DB → Problem → Bool) :
    Service (List Problem) :=
  .io (env.fails (.findProblems k)) .io <| Call.read fun w =>
    limit n ((env.random k).order (w.db.problems.rows.filter (p w.db)))

/-- The problem is not one of those selected already. -/
def notSelected (selected : List Problem) (p : Problem) : Bool :=
  !(selected.map Problem.id).contains p.id

/-- Fills up a selection that is too small from the problems that meet the filters that are never
dropped. -/
def fallback (env : Env) (needed : Prop) [Decidable needed] (count : ℤ) (filter : ProblemFilter)
    (problems : List Problem) : Service (List Problem) :=
  if needed then do
    let fallbackProblems ← findProblems env 3 (count - problems.length) fun db p =>
      filter.strict env db p && notSelected problems p
    pure (problems ++ fallbackProblems)
  else pure problems

/-- A list of texts as `%v` prints it. -/
def formatList (l : List (List Char)) : String := "[" ++ " ".intercalate (l.map String.ofList) ++ "]"

/-- `GenerateProblemsetAnyDifficulty` -/
def generateProblemsetAnyDifficulty (env : Env) (count : ℤ) (filter : ProblemFilter) :
    Service (List Problem × Bool) := do
  let problems ← findProblems env 0 count fun db p =>
    filter.strict env db p && filter.recent env db p
  let relaxed := (problems.length : ℤ) < count ∧ filter.recentlyAsked = true ∧
    normalizeTags filter.companies ≠ []
  let all ← fallback env relaxed count filter problems
  if (all.length : ℤ) < count then
    .fail (.value ⟨400, "Not enough problems found. requested=" ++ toString count ++ " found=" ++
      toString all.length ++ " tags=" ++ formatList (normalizeTags filter.tags) ++ " companies=" ++
      formatList (normalizeTags filter.companies)⟩)
  else pure (all, decide relaxed)

/-- `DifficultyParameter` -/
structure DifficultyParameter where
  numEasyProblems : ℤ
  numMediumProblems : ℤ
  numHardProblems : ℤ
  filter : ProblemFilter
  deriving DecidableEq, Repr

/-- The problems of one difficulty that a round asks for. -/
def findByDifficulty (env : Env) (k : ℕ) (difficulty : String) (n : ℤ) (filter : ProblemFilter) :
    Service (List Problem) :=
  findProblems env k n fun db p =>
    decide (p.difficulty = difficulty) && filter.strict env db p && filter.recent env db p

/-- The body of the transaction that looks for the problems of the three difficulties. -/
def findEachDifficulty (env : Env) (params : DifficultyParameter) :
    Service (List Problem × List Problem × List Problem) := do
  Call.io (env.fails .beginProblems) .io (pure ())
  let easy ← findByDifficulty env 0 difficultyEasy params.numEasyProblems params.filter
  let medium ← findByDifficulty env 1 difficultyMedium params.numMediumProblems params.filter
  let hard ← findByDifficulty env 2 difficultyHard params.numHardProblems params.filter
  Call.io (env.fails .commitProblems) .io (pure ())
  pure (easy, medium, hard)

/-- Three counts of problems as an error message shows them. -/
def formatCounts (easy medium hard : ℤ) : String :=
  "\x7beasy:" ++ toString easy ++ ",medium:" ++ toString medium ++ ",hard:" ++ toString hard ++
    "\x7d"

/-- `GenerateProblemsetByDifficultyParameters` -/
def generateProblemsetByDifficultyParameters (env : Env) (params : DifficultyParameter) :
    Service (List Problem × Bool) := do
  let requestedTotal :=
    int64 (params.numEasyProblems + params.numMediumProblems + params.numHardProblems)
  let (easy, medium, hard) ← Call.transaction rollback (findEachDifficulty env params)
  let exactDifficultySatisfied := (easy.length : ℤ) ≥ params.numEasyProblems ∧
    (medium.length : ℤ) ≥ params.numMediumProblems ∧ (hard.length : ℤ) ≥ params.numHardProblems
  let problems := easy ++ medium ++ hard
  let all ← fallback env ((problems.length : ℤ) < requestedTotal) requestedTotal params.filter
    problems
  if (all.length : ℤ) < requestedTotal then
    .fail (.value ⟨400, "Not enough tagged problems found. requested_total=" ++
      toString requestedTotal ++ " found_total=" ++ toString all.length ++ " requested=" ++
      formatCounts params.numEasyProblems params.numMediumProblems params.numHardProblems ++
      " found=" ++ formatCounts easy.length medium.length hard.length ++ " tags=" ++
      formatList (normalizeTags params.filter.tags) ++ " companies=" ++
      formatList (normalizeTags params.filter.companies)⟩)
  else
    pure (all, decide ((problems.length : ℤ) < requestedTotal ∨ ¬ exactDifficultySatisfied))

/-- The problems found, in the order in which they were asked for, each once. -/
def inOrder (found : List Problem) : List ℕ → List ℕ → List Problem
  | _, [] => []
  | seen, id :: ids =>
    if id ∈ seen then inOrder found seen ids
    else match found.find? fun p => p.id = id with
      | some problem => problem :: inOrder found (id :: seen) ids
      | none => inOrder found (id :: seen) ids

/-- `FindProblemsByIDs` -/
def findProblemsByIDs (env : Env) (ids : List ℕ) : Service (List Problem) :=
  if ids = [] then pure []
  else .io (env.fails (.findProblems 0)) .io <| Call.read fun w =>
    inOrder (env.problems.order (w.db.problems.rows.filter fun p => decide (p.id ∈ ids))) [] ids

end Bsg.Central
