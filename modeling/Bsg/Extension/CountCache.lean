import Mathlib.Data.List.Sort
import Bsg.Extension.LiveCount
import Bsg.Foundations.Pieces
import Bsg.Foundations.Run
import Bsg.Foundations.Utf16

/-!
# The cache of problem counts

The form for a new room asks for the count of problems once for each selection of filters
(`useRoomChoice`), and keeps the counts as long as the popup lives (`useProblemCountStore`).
Selections that differ in the order of their tags and companies only share a key. The key is joined
from the names as they are, with commas and bars, so that selections which consist of the same
pieces between these share it too, whatever the strings are to which the pieces belong
(`faithful_iff`). With names that have neither commas nor bars, the form shows what the endpoint
would answer (`served_from_cache`).
-/

namespace Bsg.Extension

open Bsg.Foundations Bsg.Central Pieces

/-! ## The key -/

/-- A selection of filters. -/
structure ProblemCountFilters where
  difficulties : JsString
  tags : List JsString
  companies : List JsString
  blind75 : Bool
  neetcode150 : Bool
  recentlyAsked : Bool
  excludePaid : Bool
  deriving DecidableEq, Repr

def comma : CodeUnit := codeUnit ','

def bar : CodeUnit := codeUnit '|'

/-- `sort`, without a function to compare with. -/
def sortJs (texts : List JsString) : List JsString := texts.insertionSort (· ≤ ·)

/-- `join` -/
def joinJs (sep : CodeUnit) (texts : List JsString) : JsString := List.intercalate [sep] texts

/-- A flag in the key. -/
def flagText (flag : Bool) : JsString := if flag then utf16 "1" else utf16 "0"

def buildProblemCountKey (filters : ProblemCountFilters) : JsString :=
  let sortedTags := joinJs comma (sortJs filters.tags)
  let sortedCompanies := joinJs comma (sortJs filters.companies)
  joinJs bar [filters.difficulties, sortedTags, sortedCompanies, flagText filters.blind75,
    flagText filters.neetcode150, flagText filters.recentlyAsked, flagText filters.excludePaid]

namespace ProblemCountFilters

def flags (filters : ProblemCountFilters) : List Bool :=
  [filters.blind75, filters.neetcode150, filters.recentlyAsked, filters.excludePaid]

/-- The selections are equal up to the order of their tags and companies. -/
structure Same (f g : ProblemCountFilters) : Prop where
  difficulties : f.difficulties = g.difficulties
  tags : f.tags.Perm g.tags
  companies : f.companies.Perm g.companies
  flags : f.flags = g.flags

/-! ## When selections are confused -/

def isSeparator (c : CodeUnit) : Bool := c = comma || c = bar

/-- The strings of a selection, with the separators that are put in front of them: a bar in front of
the difficulties, of the tags and of the companies, and commas between the names. -/
def strings (filters : ProblemCountFilters) : List (Piece CodeUnit) :=
  (bar, filters.difficulties) ::
    (column bar comma (sortJs filters.tags) ++ column bar comma (sortJs filters.companies))

/-- How many separators the strings themselves have. -/
def layout (filters : ProblemCountFilters) : ℕ × List ℕ × List ℕ :=
  (filters.difficulties.countP isSeparator, (sortJs filters.tags).map (·.countP isSeparator),
    (sortJs filters.companies).map (·.countP isSeparator))

/-- The selections consist of the same pieces between separators, in the same order and with the
same separators in front of them, but the pieces do not belong to the same strings. -/
def Confusable (f g : ProblemCountFilters) : Prop :=
  f.flags = g.flags ∧ pieces isSeparator f.strings = pieces isSeparator g.strings ∧
    f.layout ≠ g.layout

instance (f g : ProblemCountFilters) : Decidable (f.Confusable g) :=
  inferInstanceAs (Decidable (_ ∧ _ ∧ _))

end ProblemCountFilters

/-! ## The form -/

/-- The selection for which the form wants the count. -/
def RoundChoice.problemCountFilters (choice : RoundChoice) : ProblemCountFilters where
  difficulties := utf16 choice.activeDifficulties
  tags := choice.selectedTopics.map utf16
  companies := choice.selectedCompanies.map utf16
  blind75 := choice.blind75
  neetcode150 := choice.neetcode150
  recentlyAsked := choice.recentlyAsked
  excludePaid := choice.excludePaid

/-- A cached count. The store keeps the count only. -/
structure CachedCount where
  count : ℕ
  /-- The selection with which it was asked for. -/
  askedFor : ProblemCountFilters

/-- What the form shows, and the store behind it. -/
structure CountForm where
  /-- The store; no key is the name of a property that objects have. -/
  counts : JsString → Option CachedCount
  availableCount : Option ℕ
  isLoadingFilter : Bool
  /-- The selection for which a request is out, or about to be sent. -/
  request : Option ProblemCountFilters

/-- What happens to the form. -/
inductive CountEvent where
  /-- Filters are selected, and the effect runs for them. -/
  | select (filters : ProblemCountFilters)
  /-- The answer comes, with a number or without. -/
  | answered (count : Option ℕ)
  /-- The request fails. -/
  | failed
  /-- The form is left; the store stays. -/
  | left
  deriving Repr

namespace CountForm

def start : CountForm := ⟨fun _ => none, none, false, none⟩

def getCount (s : CountForm) (key : JsString) : Option CachedCount := s.counts key

def setCount (s : CountForm) (key : JsString) (cached : CachedCount) : CountForm :=
  { s with counts := Function.update s.counts key (some cached) }

def select (s : CountForm) (filters : ProblemCountFilters) : CountForm :=
  -- A request that is still out was aborted before, by the clean-up of the effect.
  match s.getCount (buildProblemCountKey filters) with
  | some cached =>
    { s with availableCount := some cached.count, isLoadingFilter := false, request := none }
  | none => { s with isLoadingFilter := true, request := some filters }

def answered (s : CountForm) (count : Option ℕ) : CountForm :=
  match s.request with
  | none => s
  | some filters =>
    let s' := { s with availableCount := count, isLoadingFilter := false, request := none }
    match count with
    | some n => s'.setCount (buildProblemCountKey filters) ⟨n, filters⟩
    | none => s'

def failed (s : CountForm) : CountForm :=
  match s.request with
  | none => s
  -- The count that was shown before stays.
  | some _ => { s with isLoadingFilter := false, request := none }

def step (s : CountForm) : CountEvent → CountForm
  | .select filters => s.select filters
  | .answered count => s.answered count
  | .failed => s.failed
  | .left => { s with availableCount := none, isLoadingFilter := false, request := none }

/-- What is shown from the cache for a selection was asked for with it. -/
def TakesOwn (s : CountForm) : CountEvent → Prop
  | .select filters => ∀ cached, s.getCount (buildProblemCountKey filters) = some cached →
    cached.askedFor.Same filters
  | _ => True

end CountForm

/-! ## The text of a key -/

/-- Sorting texts loses and repeats none. -/
theorem sortJs_perm (texts : List JsString) : (sortJs texts).Perm texts :=
  List.perm_insertionSort _ texts

/-- Sorted texts tell the texts up to their order. -/
theorem sortJs_eq_iff {texts texts' : List JsString} :
    sortJs texts = sortJs texts' ↔ texts.Perm texts' := by
  constructor
  · intro h
    have hperm := sortJs_perm texts
    rw [h] at hperm
    exact hperm.symm.trans (sortJs_perm texts')
  · intro h
    have hperm : (sortJs texts).Perm (sortJs texts') := calc
      (sortJs texts).Perm texts := sortJs_perm texts
      List.Perm _ texts' := h
      List.Perm _ (sortJs texts') := (sortJs_perm texts').symm
    exact List.Perm.eq_of_pairwise (fun _ _ _ _ => le_antisymm) (List.pairwise_insertionSort _ _)
      (List.pairwise_insertionSort _ _) hperm

/-- The two flags are written differently. -/
theorem flagText_injective : Function.Injective flagText := by
  have hdiffer : flagText true ≠ flagText false := by decide
  intro flag flag' h
  cases flag <;> cases flag'
  · rfl
  · exact absurd h.symm hdiffer
  · exact absurd h hdiffer
  · rfl

namespace ProblemCountFilters

variable {f g : ProblemCountFilters}

/-- The flags, with the separators in front of them. -/
def flagPieces (filters : ProblemCountFilters) : List (Piece CodeUnit) :=
  filters.flags.map fun flag => (bar, flagText flag)

/-- There are four flags. -/
theorem length_flagPieces (filters : ProblemCountFilters) : filters.flagPieces.length = 4 := rfl

/-- A key is written from the strings and the flags. -/
theorem bar_cons_key (filters : ProblemCountFilters) :
    bar :: buildProblemCountKey filters = write (filters.strings ++ filters.flagPieces) := by
  unfold strings
  calc bar :: buildProblemCountKey filters
      = write ([(bar, filters.difficulties), (bar, joinJs comma (sortJs filters.tags)),
          (bar, joinJs comma (sortJs filters.companies))] ++ filters.flagPieces) :=
        (write_column bar bar _).symm
    _ = bar :: (filters.difficulties ++
          (bar :: joinJs comma (sortJs filters.tags) ++
            bar :: joinJs comma (sortJs filters.companies))) ++ write filters.flagPieces := by
        rw [write_append, write_cons, write_cons, write_cons, write_nil, List.append_nil]
        rfl
    _ = write ((bar, filters.difficulties) :: (column bar comma (sortJs filters.tags) ++
          column bar comma (sortJs filters.companies)) ++ filters.flagPieces) := by
        rw [write_append, write_cons, write_append, write_column, write_column]
        rfl

/-- Every string of a selection is behind a separator. -/
theorem isSeparator_of_mem_strings {x : Piece CodeUnit} (h : x ∈ f.strings) :
    isSeparator x.1 = true := by
  have hsep : x.1 = bar ∨ x.1 = comma := by
    rcases List.mem_cons.mp h with rfl | hnames
    · exact Or.inl rfl
    · rcases List.mem_append.mp hnames with htags | hcompanies
      · exact sep_of_mem_column htags
      · exact sep_of_mem_column hcompanies
  rcases hsep with hbar | hcomma
  · rw [hbar]
    rfl
  · rw [hcomma]
    rfl

/-- The flags are not cut. -/
theorem pieces_flagPieces (filters : ProblemCountFilters) :
    pieces isSeparator filters.flagPieces = filters.flagPieces := by
  refine pieces_of_plain fun x hx c hc => ?_
  obtain ⟨flag, -, rfl⟩ := List.mem_map.mp hx
  have hplain : (flagText flag).all (fun c => !isSeparator c) = true := by cases flag <;> decide
  rw [← Bool.not_eq_true']
  exact List.all_eq_true.mp hplain c hc

/-- Selections share a key exactly when they have the same flags and the same pieces. -/
theorem key_eq_iff : buildProblemCountKey f = buildProblemCountKey g ↔
    f.flags = g.flags ∧ pieces isSeparator f.strings = pieces isSeparator g.strings := by
  have hsep : ∀ filters : ProblemCountFilters, ∀ x ∈ filters.strings ++ filters.flagPieces,
      isSeparator x.1 = true := by
    intro filters x hx
    rcases List.mem_append.mp hx with hstrings | hflags
    · exact isSeparator_of_mem_strings hstrings
    · obtain ⟨flag, -, rfl⟩ := List.mem_map.mp hflags
      rfl
  have hflags : f.flagPieces = g.flagPieces ↔ f.flags = g.flags :=
    (List.map_injective_iff.mpr fun _ _ h => flagText_injective (Prod.mk.inj h).2).eq_iff
  rw [← List.cons_inj_right bar, bar_cons_key, bar_cons_key, write_eq_iff (hsep f) (hsep g),
    pieces_append, pieces_append, pieces_flagPieces, pieces_flagPieces, ← hflags, and_comm]
  constructor
  · -- The last four pieces are the flags, whatever is in front of them.
    exact fun h => List.append_inj' h ((length_flagPieces f).trans (length_flagPieces g).symm)
  · rintro ⟨hstrings, hpieces⟩
    rw [hstrings, hpieces]

/-- Selections are the same up to order exactly when, besides, the separators fall on their strings
alike. -/
theorem same_iff : f.Same g ↔ f.flags = g.flags ∧
    pieces isSeparator f.strings = pieces isSeparator g.strings ∧ f.layout = g.layout := by
  constructor
  · rintro ⟨hdifficulties, htags, hcompanies, hflags⟩
    rw [← sortJs_eq_iff] at htags hcompanies
    unfold strings layout
    rw [hdifficulties, htags, hcompanies]
    exact ⟨hflags, rfl, rfl⟩
  · rintro ⟨hflags, hpieces, hlayout⟩
    obtain ⟨hdifficulties, hnames⟩ := Prod.mk.inj hlayout
    obtain ⟨htags, hcompanies⟩ := Prod.mk.inj hnames
    -- The separators in all strings are known, and with the pieces so are the strings.
    have hstrings : f.strings = g.strings := by
      refine (eq_iff_pieces isSeparator).mpr ⟨hpieces, ?_⟩
      unfold strings
      rw [separators_cons, separators_cons, separators_append, separators_append, hdifficulties,
        separators_column htags, separators_column hcompanies]
    obtain ⟨hfirst, hcolumns⟩ := List.cons.inj hstrings
    have htagLength := congrArg List.length htags
    have hcompanyLength := congrArg List.length hcompanies
    rw [List.length_map, List.length_map] at htagLength hcompanyLength
    obtain ⟨htagColumn, hcompanyColumn⟩ := List.append_inj hcolumns (length_column htagLength)
    exact ⟨(Prod.mk.inj hfirst).2, sortJs_eq_iff.mp (column_inj htagLength htagColumn),
      sortJs_eq_iff.mp (column_inj hcompanyLength hcompanyColumn), hflags⟩

/-- The order of tags and companies is not in the key. -/
theorem Same.key (h : f.Same g) : buildProblemCountKey f = buildProblemCountKey g := by
  obtain ⟨hflags, hpieces, -⟩ := same_iff.mp h
  exact key_eq_iff.mpr ⟨hflags, hpieces⟩

/-- Confused selections share a key, though they are not the same. -/
theorem Confusable.key (h : f.Confusable g) :
    buildProblemCountKey f = buildProblemCountKey g ∧ ¬ f.Same g :=
  ⟨key_eq_iff.mpr ⟨h.1, h.2.1⟩, fun hsame => h.2.2 (same_iff.mp hsame).2.2⟩

/-- A comma in a name is as good as one between names. -/
example : Confusable ⟨[], [utf16 "a,b"], [], false, false, false, false⟩
    ⟨[], [utf16 "b", utf16 "a"], [], false, false, false, false⟩ := by decide +kernel

/-- Where selections are not confused, those with one key are the same. -/
theorem same_of_key (hnot : ¬ f.Confusable g)
    (h : buildProblemCountKey f = buildProblemCountKey g) : f.Same g := by
  obtain ⟨hflags, hpieces⟩ := key_eq_iff.mp h
  refine same_iff.mpr ⟨hflags, hpieces, ?_⟩
  by_contra hlayout
  exact hnot ⟨hflags, hpieces, hlayout⟩

/-- The name is not empty and has neither a comma nor a bar. -/
def PlainName (name : JsString) : Prop := name ≠ [] ∧ comma ∉ name ∧ bar ∉ name

/-- All names are plain, and there is no bar in the difficulties. -/
structure Plain (filters : ProblemCountFilters) : Prop where
  difficulties : bar ∉ filters.difficulties
  tags : ∀ name ∈ filters.tags, PlainName name
  companies : ∀ name ∈ filters.companies, PlainName name

/-- Plain names are known up to their order when they are sorted and joined. -/
theorem perm_of_joinJs_eq {names names' : List JsString} (hnames : ∀ name ∈ names, PlainName name)
    (hnames' : ∀ name ∈ names', PlainName name)
    (h : joinJs comma (sortJs names) = joinJs comma (sortJs names')) : names.Perm names' := by
  -- One empty name would be joined to the same text as no names.
  have hsorted : ∀ {texts : List JsString}, (∀ text ∈ texts, PlainName text) →
      (∀ text ∈ sortJs texts, comma ∉ text) ∧ sortJs texts ≠ [[]] := by
    intro texts htexts
    have hmem : ∀ text, text ∈ sortJs texts → PlainName text :=
      fun text htext => htexts text ((sortJs_perm texts).mem_iff.mp htext)
    refine ⟨fun text htext => (hmem text htext).2.1, fun hempty => ?_⟩
    rw [hempty] at hmem
    exact (hmem [] List.mem_cons_self).1 rfl
  obtain ⟨hplain, hne⟩ := hsorted hnames
  obtain ⟨hplain', hne'⟩ := hsorted hnames'
  exact sortJs_eq_iff.mp (intercalate_inj hplain hplain' hne hne' h)

/-- The fields of a key are what stands between its bars. -/
theorem Plain.splitOn_key (h : f.Plain) : (buildProblemCountKey f).splitOn bar =
    [f.difficulties, joinJs comma (sortJs f.tags), joinJs comma (sortJs f.companies),
      flagText f.blind75, flagText f.neetcode150, flagText f.recentlyAsked,
      flagText f.excludePaid] := by
  have hnames : ∀ {names : List JsString}, (∀ name ∈ names, PlainName name) →
      bar ∉ joinJs comma (sortJs names) := by
    intro names hnames hmem
    rcases mem_of_mem_intercalate hmem with hcomma | ⟨name, hname, hbar⟩
    · exact absurd hcomma (by decide)
    · exact (hnames name ((sortJs_perm names).mem_iff.mp hname)).2.2 hbar
  have hflag : ∀ flag : Bool, bar ∉ flagText flag := by decide
  refine List.splitOn_intercalate bar ?_ (List.cons_ne_nil _ _)
  simp only [List.forall_mem_cons, List.not_mem_nil, false_implies, implies_true, and_true]
  exact ⟨h.difficulties, hnames h.tags, hnames h.companies, hflag _, hflag _, hflag _, hflag _⟩

/-- Plain selections are not confused. -/
theorem not_confusable_of_plain (hf : f.Plain) (hg : g.Plain) : ¬ f.Confusable g := by
  intro h
  obtain ⟨hkey, hdiffer⟩ := h.key
  -- Bars are between the fields only, and commas between the names only.
  have hfields := hf.splitOn_key
  rw [hkey, hg.splitOn_key] at hfields
  simp only [List.cons.injEq] at hfields
  obtain ⟨hdifficulties, htags, hcompanies, -⟩ := hfields
  exact hdiffer ⟨hdifficulties.symm, perm_of_joinJs_eq hf.tags hg.tags htags.symm,
    perm_of_joinJs_eq hf.companies hg.companies hcompanies.symm, h.1⟩

end ProblemCountFilters

/-! ## Runs of the form -/

namespace CountForm

/-- Each count is kept under the key of the selection with which it was asked for, and selections
are among `S`. -/
structure Keyed (S : Set ProblemCountFilters) (s : CountForm) : Prop where
  counts : ∀ key cached, s.getCount key = some cached →
    buildProblemCountKey cached.askedFor = key ∧ cached.askedFor ∈ S
  request : ∀ filters, s.request = some filters → filters ∈ S

variable {S : Set ProblemCountFilters} {s : CountForm}

/-- The count that is set is the one that is cached. -/
theorem getCount_setCount_self (s : CountForm) (key : JsString) (cached : CachedCount) :
    (s.setCount key cached).getCount key = some cached := Function.update_self key _ _

/-- The counts under other keys are as before. -/
theorem getCount_setCount_of_ne {key key' : JsString} (hne : key' ≠ key) (s : CountForm)
    (cached : CachedCount) : (s.setCount key cached).getCount key' = s.getCount key' :=
  Function.update_of_ne hne _ _

/-- Nothing is cached at first. -/
theorem keyed_start : Keyed S start where
  counts _ _ h := nomatch h
  request _ h := nomatch h

/-- Nothing is asked for any more. -/
theorem Keyed.idle (h : Keyed S s) (availableCount : Option ℕ) (isLoadingFilter : Bool) :
    Keyed S { s with
      availableCount := availableCount, isLoadingFilter := isLoadingFilter, request := none } :=
  ⟨h.counts, fun _ hrequest => nomatch hrequest⟩

/-- A count is cached under the key of its own filters. -/
theorem Keyed.setCount (h : Keyed S s) {filters : ProblemCountFilters} (hfilters : filters ∈ S)
    (n : ℕ) : Keyed S (s.setCount (buildProblemCountKey filters) ⟨n, filters⟩) := by
  refine ⟨fun key cached hcached => ?_, h.request⟩
  by_cases hkey : key = buildProblemCountKey filters
  · rw [hkey, getCount_setCount_self] at hcached
    cases hcached
    exact ⟨hkey.symm, hfilters⟩
  · -- Counts under other keys stay.
    rw [getCount_setCount_of_ne hkey] at hcached
    exact h.counts key cached hcached

/-- A step keeps the counts under their keys. -/
theorem Keyed.step (h : Keyed S s) {e : CountEvent}
    (he : ∀ filters, e = .select filters → filters ∈ S) : Keyed S (s.step e) := by
  cases e with
  | select filters =>
    show Keyed S (s.select filters)
    unfold select
    split
    · exact h.idle _ _
    · refine ⟨h.counts, fun filters' hrequest => ?_⟩
      cases hrequest
      exact he filters rfl
  | answered count =>
    show Keyed S (s.answered count)
    unfold answered
    split
    · exact h
    · rename_i filters hrequest
      -- An answer is stored under the filters that were asked, if it has a number.
      cases count with
      | none => exact h.idle _ _
      | some n => exact (h.idle _ _).setCount (h.request filters hrequest) n
  | failed =>
    show Keyed S s.failed
    unfold failed
    split
    · exact h
    · exact h.idle _ _
  | left => exact h.idle _ _

/-- The selections of a run are those in it. -/
theorem along_selects {es : List CountEvent} (hes : ∀ filters, .select filters ∈ es → filters ∈ S) :
    Along step (fun _ e => ∀ filters, e = .select filters → filters ∈ S) s es :=
  Along.of_mem fun _ he filters heq => hes filters (heq ▸ he)

/-- A count that was asked for is shown for the next selection with the same key. -/
theorem not_along_of_key {f g : ProblemCountFilters}
    (hkey : buildProblemCountKey f = buildProblemCountKey g) (hnot : ¬ f.Same g) (n : ℕ) :
    ¬ Along step TakesOwn start [.select f, .answered (some n), .select g] := by
  rintro ⟨-, -, htakes, -⟩
  refine hnot (htakes ⟨n, f⟩ ?_)
  rw [← hkey]
  exact getCount_setCount_self _ _ _

/-- When no selections are confused, each is shown counts only that were asked for with it. -/
theorem along_takesOwn (hnot : ∀ f ∈ S, ∀ g ∈ S, ¬ f.Confusable g) {es : List CountEvent}
    (hes : ∀ filters, .select filters ∈ es → filters ∈ S) : Along step TakesOwn start es := by
  have hall : Along step (fun _ _ => True) start es := Along.of_forall fun _ _ => trivial
  -- The counts are kept under the keys of selections from `S`.
  refine (along_congr (fun _ _ h he => h.step he) (fun s e h he => iff_true_intro ?_) keyed_start
    (along_selects hes)).mpr hall
  cases e with
  | select filters =>
    intro cached hcached
    obtain ⟨hkey, hmem⟩ := h.counts _ cached hcached
    exact ProblemCountFilters.same_of_key (hnot _ hmem _ (he filters rfl)) hkey
  | answered count => trivial
  | failed => trivial
  | left => trivial

/-- Two selections share a key exactly when they are the same up to order, unless the same pieces
belong to other strings in them; and the form shows no selection the count of another one, in any
run in which the selections are from some set, exactly when there are no two of that kind in the
set. -/
theorem faithful_iff (f g : ProblemCountFilters) (S : Set ProblemCountFilters) :
    ((buildProblemCountKey f = buildProblemCountKey g ↔ f.Same g) ↔ ¬ f.Confusable g) ∧
    ((∀ es, (∀ filters, .select filters ∈ es → filters ∈ S) → Along step TakesOwn start es) ↔
      ∀ f ∈ S, ∀ g ∈ S, ¬ f.Confusable g) := by
  refine ⟨⟨fun hfaithful hconfused => ?_, fun hnot => ?_⟩, ?_, ?_⟩
  · obtain ⟨hkey, hdiffer⟩ := hconfused.key
    exact hdiffer (hfaithful.mp hkey)
  · exact ⟨ProblemCountFilters.same_of_key hnot, ProblemCountFilters.Same.key⟩
  · -- Of two selections that are confused, one is shown the count of the other.
    intro hruns f hf g hg hconfused
    obtain ⟨hkey, hdiffer⟩ := hconfused.key
    refine not_along_of_key hkey hdiffer 1 (hruns _ fun filters hmem => ?_)
    simp only [List.mem_cons, CountEvent.select.injEq, reduceCtorEq, List.not_mem_nil, false_or,
      or_false] at hmem
    rcases hmem with rfl | rfl
    · exact hf
    · exact hg
  · exact fun hnot es hes => along_takesOwn hnot hes

/-- A company whose name has a bar in it. -/
def barInCompany : ProblemCountFilters :=
  ⟨utf16 "easy", [utf16 "Array"], [utf16 "A|B"], false, false, false, true⟩

/-- The bar is in the name of a tag. -/
def barInTag : ProblemCountFilters :=
  ⟨utf16 "easy", [utf16 "Array|A"], [utf16 "B"], false, false, false, true⟩

/-- Both selections have the key `easy|Array|A|B|0|0|0|1`, and the count of one is shown for the
other. -/
theorem not_faithful :
    ¬ (buildProblemCountKey barInCompany = buildProblemCountKey barInTag ↔
      barInCompany.Same barInTag) ∧
    ¬ Along step TakesOwn start [.select barInCompany, .answered (some 3), .select barInTag] := by
  have hkey : buildProblemCountKey barInCompany = buildProblemCountKey barInTag := by decide +kernel
  have hdiffer : ¬ barInCompany.Same barInTag := by
    intro hsame
    have htags : [utf16 "Array"] = [utf16 "Array|A"] := List.perm_singleton.mp hsame.tags
    revert htags
    decide +kernel
  exact ⟨fun hiff => hdiffer (hiff.mp hkey), not_along_of_key hkey hdiffer 3⟩

end CountForm

/-! ## The counts of the endpoint -/

section Served

variable {choice choice' : RoundChoice}

/-- The names that are selected are plain. -/
def RoundChoice.PlainNames (choice : RoundChoice) : Prop :=
  ∀ name ∈ choice.selectedTopics ++ choice.selectedCompanies,
    name ≠ "" ∧ ',' ∉ name.toList ∧ '|' ∉ name.toList

/-- The difficulties have no bar. -/
theorem bar_notMem_activeDifficulties (choice : RoundChoice) :
    '|' ∉ choice.activeDifficulties.toList := by
  unfold RoundChoice.activeDifficulties
  split_ifs <;> decide +kernel

/-- The selection of plain names is plain. -/
theorem RoundChoice.PlainNames.plain (h : choice.PlainNames) :
    choice.problemCountFilters.Plain := by
  have hname : ∀ name ∈ choice.selectedTopics ++ choice.selectedCompanies,
      ProblemCountFilters.PlainName (utf16 name) := by
    intro name hmem
    obtain ⟨hne, hcomma, hbar⟩ := h name hmem
    refine ⟨fun hnil => hne (utf16_injective hnil), ?_, ?_⟩
    · exact fun hunit => hcomma ((mem_utf16 (by decide)).mp hunit)
    · exact fun hunit => hbar ((mem_utf16 (by decide)).mp hunit)
  refine ⟨fun hunit => ?_, fun name hmem => ?_, fun name hmem => ?_⟩
  · exact bar_notMem_activeDifficulties choice ((mem_utf16 (by decide)).mp hunit)
  · obtain ⟨topic, htopic, rfl⟩ := List.mem_map.mp hmem
    exact hname topic (List.mem_append_left _ htopic)
  · obtain ⟨company, hcompany, rfl⟩ := List.mem_map.mp hmem
    exact hname company (List.mem_append_right _ hcompany)

/-- For plain selections that are the same up to order, the endpoint does the same. -/
theorem endpoint_of_same (hplain : choice.PlainNames) (hplain' : choice'.PlainNames)
    (h : choice.problemCountFilters.Same choice'.problemCountFilters) (env : Env) :
    countAvailableProblemsEndpoint env choice.countQuery =
      countAvailableProblemsEndpoint env choice'.countQuery := by
  -- Plain names are received as they are.
  have hreceived : ∀ {names : List String},
      (∀ name ∈ names, name ≠ "" ∧ ',' ∉ name.toList ∧ '|' ∉ name.toList) →
      splitParam (joinComma names) = names := fun hnames =>
    splitParam_joinComma (fun hempty => (hnames "" hempty).1 rfl)
      fun name hname => (hnames name hname).2.1
  obtain ⟨htopics, hcompanies⟩ := List.forall_mem_append.mp hplain
  obtain ⟨htopics', hcompanies'⟩ := List.forall_mem_append.mp hplain'
  have hdifficulties : choice.activeDifficulties = choice'.activeDifficulties :=
    utf16_injective h.difficulties
  have hflags := h.flags
  simp only [ProblemCountFilters.flags, RoundChoice.problemCountFilters, List.cons.injEq, and_true]
    at hflags
  obtain ⟨hblind75, hneetcode150, hrecentlyAsked, hexcludePaid⟩ := hflags
  have hfilters : ∀ (db : DB) (p : Problem),
      (choice.countedFilter.strict env db p && choice.countedFilter.recent env db p) =
        (choice'.countedFilter.strict env db p && choice'.countedFilter.recent env db p) := by
    intro db p
    unfold RoundChoice.countedFilter
    rw [hreceived htopics, hreceived hcompanies, hreceived htopics', hreceived hcompanies']
    -- The filters only look for the names in lists, so their order does not matter.
    refine filters_perm (perm_of_map_utf16 h.tags) (perm_of_map_utf16 h.companies) ?_
    rw [hblind75, hneetcode150, hrecentlyAsked, hexcludePaid]
  unfold countAvailableProblemsEndpoint
  rw [countRequest_countQuery, countRequest_countQuery, hdifficulties]
  show countAvailableProblems env choice.countedFilter _ =
    countAvailableProblems env choice'.countedFilter _
  unfold countAvailableProblems
  simp only [hfilters]

/-- A form in which plain names are selected shows for no choice a count from the cache that was not
asked for with a query to which the endpoint answers alike. -/
theorem served_from_cache {es : List CountEvent}
    (hes : ∀ filters, .select filters ∈ es →
      ∃ choice : RoundChoice, choice.PlainNames ∧ choice.problemCountFilters = filters) :
    Throughout CountForm.step (fun s => ∀ choice : RoundChoice, choice.PlainNames → ∀ cached,
      s.getCount (buildProblemCountKey choice.problemCountFilters) = some cached →
      ∃ choice' : RoundChoice, choice'.problemCountFilters = cached.askedFor ∧
        ∀ env, countAvailableProblemsEndpoint env choice'.countQuery =
          countAvailableProblemsEndpoint env choice.countQuery) .start es := by
  have hkeyed : Throughout CountForm.step (CountForm.Keyed
      {filters | ∃ choice : RoundChoice, choice.PlainNames ∧ choice.problemCountFilters = filters})
      .start es :=
    invariant_along (fun _ _ h he => h.step he) CountForm.keyed_start (CountForm.along_selects hes)
  refine hkeyed.mono fun s h choice hplain cached hcached => ?_
  obtain ⟨hkey, choice', hplain', heq⟩ := h.counts _ cached hcached
  refine ⟨choice', heq, fun env => endpoint_of_same hplain' hplain ?_ env⟩
  rw [← heq] at hkey
  exact ProblemCountFilters.same_of_key
    (ProblemCountFilters.not_confusable_of_plain hplain'.plain hplain.plain) hkey

end Served

end Bsg.Extension
