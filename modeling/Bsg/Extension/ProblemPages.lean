import Bsg.Central.ProblemSeeding
import Bsg.Extension.Panel
import Mathlib.Tactic.IntervalCases

/-!
# Pages of problems

Seeding takes the slugs of a list of problems from the addresses in a file (`slugFromLeetCodeURL`),
and the panel takes the slug of a problem from the URL of the tab (`parseProblemSlug`). The one
trims the address and looks only behind the first `/problems/`; the other stops at a fragment and
goes on when no name follows. On addresses of problems they agree (`findSlug_address`), so a list
marks the problems whose pages the panel would find at its addresses (`seedProblemList_pages`).
-/

namespace Bsg.Extension

open Bsg.Foundations Bsg.Central Search

/-! ## What the panel finds -/

/-- What stands before the name of a problem. -/
def problemsPath : List Char := "/problems/".toList

/-- The path of the problems is not empty. -/
theorem problemsPath_ne : problemsPath ≠ [] := by decide

/-- The name of a problem, as the panel reads it from a position on. -/
def nameAt (text : List Char) (i : ℕ) : List Char :=
  (text.drop (i + problemsPath.length)).takeWhile fun c => c ≠ '/' && c ≠ '?' && c ≠ '#'

section Find

variable {text : List Char}

/-- The slug is the name behind the first path that has one. -/
theorem findSlug_cons (c : Char) (cs : List Char) : findSlug (c :: cs) =
    if OccursAt (c :: cs) problemsPath 0 ∧ nameAt (c :: cs) 0 ≠ [] then some (nameAt (c :: cs) 0)
    else findSlug cs := by
  have hoccurs : "/problems/".toList.isPrefixOf (c :: cs) =
      decide (OccursAt (c :: cs) problemsPath 0) := by
    rw [Bool.eq_iff_iff, decide_eq_true_eq, List.isPrefixOf_iff_prefix]
    rfl
  have hunfold : findSlug (c :: cs) =
      if ("/problems/".toList.isPrefixOf (c :: cs) && decide (nameAt (c :: cs) 0 ≠ [])) = true then
        some (nameAt (c :: cs) 0)
      else findSlug cs := by
    unfold nameAt
    rw [findSlug, Nat.zero_add]
    rfl
  rw [hunfold, hoccurs]
  refine if_congr ?_ rfl rfl
  rw [Bool.and_eq_true, decide_eq_true_eq, decide_eq_true_eq]

/-- The name behind the first `/problems/` is found. -/
theorem findSlug_of_first {i : ℕ} (hoccurs : OccursAt text problemsPath i)
    (hfirst : ∀ j < i, ¬ OccursAt text problemsPath j) (hname : nameAt text i ≠ []) :
    findSlug text = some (nameAt text i) := by
  induction text generalizing i with
  | nil =>
    have hend := hoccurs.end_le problemsPath_ne
    rw [List.length_nil] at hend
    exact absurd (List.length_pos_iff.mpr problemsPath_ne) (by omega)
  | cons c cs ih =>
    cases i with
    | zero => rw [findSlug_cons, if_pos ⟨hoccurs, hname⟩]
    | succ i =>
      have hshift : ∀ j, OccursAt (c :: cs) problemsPath (j + 1) ↔ OccursAt cs problemsPath j := by
        intro j
        unfold OccursAt
        rw [List.drop_succ_cons]
      have hat : nameAt (c :: cs) (i + 1) = nameAt cs i := by
        unfold nameAt
        rw [Nat.add_right_comm, List.drop_succ_cons]
      rw [findSlug_cons, if_neg fun h => hfirst 0 (Nat.succ_pos i) h.1, hat]
      rw [hat] at hname
      refine ih ((hshift i).mp hoccurs) (fun j hj hearlier => ?_) hname
      exact hfirst (j + 1) (Nat.succ_lt_succ hj) ((hshift j).mpr hearlier)

/-- Without `/problems/` there is no page of a problem. -/
theorem findSlug_of_forall (h : ∀ i, ¬ OccursAt text problemsPath i) : findSlug text = none := by
  induction text with
  | nil => rfl
  | cons c cs ih =>
    rw [findSlug_cons, if_neg fun hboth => h 0 hboth.1]
    refine ih fun i hi => h (i + 1) ?_
    unfold OccursAt at hi ⊢
    rwa [List.drop_succ_cons]

end Find

/-! ## Addresses -/

/-- An address of a problem or of another page: without white space around it and without a
fragment, and with a name behind its first `/problems/`. -/
structure Address (link : List Char) : Prop where
  trimmed : trimSpace link = link
  noFragment : '#' ∉ link
  named : ∀ i, index link problemsPath = some i → nameAt link i ≠ []

/-- A slash at the end is cut off. -/
theorem trimSuffix_slash (link : List Char) :
    trimSuffix link ['/'] = link ∨ link = trimSuffix link ['/'] ++ ['/'] := by
  unfold trimSuffix
  split
  · rename_i hsuffix
    obtain ⟨before, hbefore⟩ := List.isSuffixOf_iff_suffix.mp hsuffix
    refine Or.inr ?_
    rw [← hbefore]
    simp
  · exact Or.inl rfl

section Trimmed

variable {link text : List Char}

/-- What occurs in an address without the slash at its end occurs in the address. -/
theorem occursAt_of_trimmed (h : text = link ∨ link = text ++ ['/']) {i : ℕ}
    (hoccurs : OccursAt text problemsPath i) : OccursAt link problemsPath i := by
  rcases h with rfl | rfl
  · exact hoccurs
  · have hend := hoccurs.end_le problemsPath_ne
    unfold OccursAt
    rw [List.drop_append_of_le_length (by omega)]
    exact hoccurs.trans (List.prefix_append _ _)

/-- What occurs in an address occurs without the slash at its end, unless that slash belongs to it.
-/
theorem occursAt_trimmed (h : text = link ∨ link = text ++ ['/']) {i : ℕ}
    (hoccurs : OccursAt link problemsPath i) (hend : i + problemsPath.length ≤ text.length) :
    OccursAt text problemsPath i := by
  rcases h with rfl | rfl
  · exact hoccurs
  · unfold OccursAt at hoccurs ⊢
    rw [List.drop_append_of_le_length (by omega)] at hoccurs
    have hlong : problemsPath.length ≤ (text.drop i).length := by
      rw [List.length_drop]
      omega
    exact List.prefix_of_prefix_length_le hoccurs (List.prefix_append _ _) hlong

/-- The name is the same with the slash and without it, and where there is no fragment it stops only
at a slash or a query. -/
theorem nameAt_trimmed (h : text = link ∨ link = text ++ ['/']) (hfragment : '#' ∉ link) {i : ℕ}
    (hend : i + problemsPath.length ≤ text.length) :
    nameAt link i =
      (text.drop (i + problemsPath.length)).takeWhile fun c => !(c = '/' || c = '?') := by
  -- Without a fragment, the two ends of a name are the same.
  have hstop : ∀ cs : List Char, '#' ∉ cs →
      cs.takeWhile (fun c => c ≠ '/' && c ≠ '?' && c ≠ '#') =
        cs.takeWhile fun c => !(c = '/' || c = '?') := by
    intro cs
    induction cs with
    | nil => exact fun _ => rfl
    | cons c cs ih =>
      intro hcs
      rw [List.mem_cons, not_or] at hcs
      have hc : c ≠ '#' := Ne.symm hcs.1
      simp only [List.takeWhile_cons, ih hcs.2]
      by_cases hslash : c = '/' <;> by_cases hquery : c = '?' <;> simp [hslash, hquery, hc]
  unfold nameAt
  rcases h with rfl | rfl
  · exact hstop _ fun hmem => hfragment (List.mem_of_mem_drop hmem)
  · rw [hstop _ fun hmem => hfragment (List.mem_of_mem_drop hmem),
      List.drop_append_of_le_length hend]
    generalize text.drop (i + problemsPath.length) = rest
    induction rest with
    | nil => rfl
    | cons c cs ih =>
      rw [List.cons_append, List.takeWhile_cons, List.takeWhile_cons, ih]

end Trimmed

/-- On an address, seeding and the panel find the same name, or both none. -/
theorem findSlug_address {link : List Char} (h : Address link) :
    findSlug link = (some (slugFromLeetCodeURL link)).filter fun slug => slug ≠ [] := by
  have hslash : trimSuffix link ['/'] = link ∨ link = trimSuffix link ['/'] ++ ['/'] :=
    trimSuffix_slash link
  have hslug : slugFromLeetCodeURL link =
      ((index (trimSuffix link ['/']) problemsPath).map fun idx =>
        ((trimSuffix link ['/']).drop (idx + problemsPath.length)).takeWhile
          fun c => !(c = '/' || c = '?')).getD [] := by
    unfold slugFromLeetCodeURL problemsPath
    rw [h.trimmed]
    dsimp only
    cases index (trimSuffix link ['/']) "/problems/".toList with
    | none => rfl
    | some idx => rfl
  rw [hslug]
  cases hindex : index (trimSuffix link ['/']) problemsPath with
  | some i =>
    obtain ⟨hoccurs, hfirst⟩ := index_eq_some hindex
    have hend := hoccurs.end_le problemsPath_ne
    have hlink := occursAt_of_trimmed hslash hoccurs
    have hlinkFirst : ∀ j < i, ¬ OccursAt link problemsPath j := fun j hj hearlier =>
      hfirst j hj (occursAt_trimmed hslash hearlier (by omega))
    have hname : nameAt link i ≠ [] := h.named i (index_of_first problemsPath_ne hlink hlinkFirst)
    rw [findSlug_of_first hlink hlinkFirst hname]
    rw [Option.map_some, Option.getD_some, ← nameAt_trimmed hslash h.noFragment hend,
      Option.filter_some, if_pos (decide_eq_true hname)]
  | none =>
    have hnone := index_eq_none problemsPath_ne hindex
    refine findSlug_of_forall fun i hi => ?_
    cases hall : index link problemsPath with
    | none => exact index_eq_none problemsPath_ne hall i hi
    | some j =>
      -- The only `/problems/` is at the very end, and then no name follows it.
      obtain ⟨hj, -⟩ := index_eq_some hall
      have hjend := hj.end_le problemsPath_ne
      refine h.named j hall ?_
      have hover : ¬ j + problemsPath.length ≤ (trimSuffix link ['/']).length := fun hle =>
        hnone j (occursAt_trimmed hslash hj hle)
      have hlength : link.length ≤ j + problemsPath.length := by
        rcases hslash with hsame | hcut
        · rw [hsame] at hover
          omega
        · rw [hcut, List.length_append, List.length_singleton]
          omega
      unfold nameAt
      rw [List.drop_of_length_le hlength]
      rfl

/-! ## The pages that the panel opens -/

/-- A slug that can stand in the path of an address. -/
structure PlainSlug (slug : String) : Prop where
  ne : slug.toList ≠ []
  noSlash : '/' ∉ slug.toList
  noQuery : '?' ∉ slug.toList
  noFragment : '#' ∉ slug.toList

section Url

variable {slug : String}

/-- The letters of the URL of a problem. -/
theorem toList_problemUrl (slug : String) : (problemUrl slug).toList =
    "https://leetcode.com".toList ++ (problemsPath ++ (slug.toList ++ ['/'])) := by
  unfold problemUrl problemsPath
  simp

/-- The path begins after the host, and not earlier. -/
theorem occursAt_problemUrl (slug : String) : OccursAt (problemUrl slug).toList problemsPath 20 ∧
    ∀ j < 20, ¬ OccursAt (problemUrl slug).toList problemsPath j := by
  rw [toList_problemUrl]
  constructor
  · exact List.prefix_append _ _
  · intro j hj hoccurs
    unfold OccursAt problemsPath at hoccurs
    interval_cases j <;> simp at hoccurs

/-- The name in the address is the slug. -/
theorem nameAt_problemUrl (h : PlainSlug slug) : nameAt (problemUrl slug).toList 20 = slug.toList := by
  have hdrop : (problemUrl slug).toList.drop (20 + problemsPath.length) = slug.toList ++ ['/'] := by
    rw [toList_problemUrl]
    rfl
  have hplain : ∀ c ∈ slug.toList, (c ≠ '/' && c ≠ '?' && c ≠ '#') = true := by
    intro c hc
    simp only [Bool.and_eq_true, decide_eq_true_eq]
    refine ⟨⟨?_, ?_⟩, ?_⟩
    · exact fun heq => h.noSlash (heq ▸ hc)
    · exact fun heq => h.noQuery (heq ▸ hc)
    · exact fun heq => h.noFragment (heq ▸ hc)
  unfold nameAt
  rw [hdrop, List.takeWhile_append_of_pos hplain]
  simp

/-- The panel finds the problem on whose page it put the tab. -/
theorem parseProblemSlug_problemUrl (h : PlainSlug slug) :
    parseProblemSlug (problemUrl slug) = some slug := by
  obtain ⟨hoccurs, hfirst⟩ := occursAt_problemUrl slug
  have hname := nameAt_problemUrl h
  unfold parseProblemSlug
  rw [findSlug_of_first hoccurs hfirst (hname ▸ h.ne), hname, Option.map_some, String.ofList_toList]

/-- The pages that the panel opens are addresses. -/
theorem address_problemUrl (h : PlainSlug slug) : Address (problemUrl slug).toList := by
  -- The path occurs first right behind the host, and the slug is behind it.
  obtain ⟨hoccurs, hfirst⟩ := occursAt_problemUrl slug
  constructor
  · have hhead : "https://leetcode.com".toList ++ (problemsPath ++ (slug.toList ++ ['/'])) =
        'h' :: "ttps://leetcode.com".toList ++ (problemsPath ++ (slug.toList ++ ['/'])) := rfl
    unfold trimSpace
    rw [toList_problemUrl, hhead, List.cons_append, List.dropWhile_cons_of_neg (by decide)]
    generalize "ttps://leetcode.com".toList = host
    generalize problemsPath = path
    simp only [List.reverse_cons, List.reverse_append, List.reverse_nil, List.nil_append,
      List.cons_append]
    rw [List.dropWhile_cons_of_neg (by decide)]
    simp
  · rw [toList_problemUrl, ← List.append_assoc]
    intro hmem
    rcases List.mem_append.mp hmem with hhost | hpath
    · exact absurd hhost (by decide)
    · rcases List.mem_append.mp hpath with hslug | hslash
      · exact h.noFragment hslug
      · exact absurd hslash (by decide)
  · intro i hi
    obtain rfl : 20 = i :=
      Option.some.inj ((index_of_first problemsPath_ne hoccurs hfirst).symm.trans hi)
    rw [nameAt_problemUrl h]
    exact h.ne

end Url

/-! ## A list of problems -/

/-- At one of the listed addresses the panel would find the problem with a slug. -/
def PageListed (urlIndex : ℕ) (results : List (Except Csv.CsvError Csv.Record)) (slug : String) :
    Prop :=
  ∃ link, Listed urlIndex results link ∧ parseProblemSlug (String.ofList link) = some slug

/-- The slugs of a list of addresses are those that the panel finds. -/
theorem mem_listSlugs_iff {urlIndex : ℕ} {results : List (Except Csv.CsvError Csv.Record)}
    (h : ∀ link, Listed urlIndex results link → Address link) (slug : String) :
    slug ∈ listSlugs urlIndex results ↔ PageListed urlIndex results slug := by
  -- On an address, the panel and the service read the same name.
  have hfinds : ∀ link, Address link → (parseProblemSlug (String.ofList link) = some slug ↔
      slug.toList ≠ [] ∧ slugFromLeetCodeURL link = slug.toList) := by
    intro link hlink
    unfold parseProblemSlug
    rw [String.toList_ofList, findSlug_address hlink, Option.filter_some]
    by_cases hne : slugFromLeetCodeURL link = []
    · simp only [hne, ne_eq, not_true_eq_false, decide_false, Bool.false_eq_true, if_false,
        Option.map_none, reduceCtorEq, false_iff]
      exact fun hboth => hboth.1 hboth.2.symm
    · rw [if_pos (decide_eq_true hne), Option.map_some, Option.some_inj]
      constructor
      · rintro rfl
        rw [String.toList_ofList]
        exact ⟨hne, rfl⟩
      · rintro ⟨-, heq⟩
        rw [heq, String.ofList_toList]
  rw [mem_listSlugs]
  constructor
  · rintro ⟨hne, link, hlisted, hslug⟩
    exact ⟨link, hlisted, (hfinds link (h link hlisted)).mpr ⟨hne, hslug⟩⟩
  · rintro ⟨link, hlisted, hslug⟩
    obtain ⟨hne, heq⟩ := (hfinds link (h link hlisted)).mp hslug
    exact ⟨hne, link, hlisted, heq⟩

/-- A problem before and after a list was seeded: it is marked when its page is listed, and the same
otherwise. -/
def MarkedByPage (list : ProblemList) (urlIndex : ℕ)
    (results : List (Except Csv.CsvError Csv.Record)) (p p' : Problem) : Prop :=
  (PageListed urlIndex results p.slug → p' = list.mark p) ∧
    (¬ PageListed urlIndex results p.slug → p' = p)

/-- A list of addresses marks the problems whose pages the panel would find there, and nothing else
is changed. -/
theorem seedProblemList_pages (env : SeedEnv) (henv : env.Quiet) (lower : Char → Char)
    (list : ProblemList) (text : List Char) (header : Csv.Record)
    (results : List (Except Csv.CsvError Csv.Record)) (urlIndex : ℕ)
    (hheader : readHeader text = .ok (header, results))
    (hcolumn : columnIndex lower header "leetcode url" = some urlIndex)
    (haddress : ∀ link, Listed urlIndex results link → Address link)
    (hstorable : ∀ slug, PageListed urlIndex results slug → '\x00' ∉ slug.toList)
    (hsome : ∃ slug, PageListed urlIndex results slug) (s : Named) :
    ∃ s', (seedProblemList env lower list text).run s = (.ok (), s') ∧ s'.name = s.name ∧
      s'.catalogue = s.catalogue.withProblems s'.problems ∧
      List.Forall₂ (MarkedByPage list urlIndex results) s.problems.rows s'.problems.rows := by
  have hlisted := mem_listSlugs_iff haddress
  have hne : listSlugs urlIndex results ≠ [] := by
    obtain ⟨slug, hslug⟩ := hsome
    exact List.ne_nil_of_mem ((hlisted slug).mpr hslug)
  have hread : readSlugs lower text = .ok (listSlugs urlIndex results) := by
    simp only [readSlugs, hheader, bind, Except.bind, hcolumn]
    exact if_neg hne
  refine ⟨s.mark list (listSlugs urlIndex results), seedProblemList_marks henv hread
    (fun slug hslug => hstorable slug ((hlisted slug).mp hslug)) list s, rfl, rfl, ?_⟩
  -- Row by row, the mark is set where the slug is listed.
  change List.Forall₂ _ _ (s.problems.rows.map fun p =>
    if (listSlugs urlIndex results).contains p.slug then list.mark p else p)
  rw [List.forall₂_map_right_iff, List.forall₂_same]
  intro p _
  have hcontains : (listSlugs urlIndex results).contains p.slug = true ↔
      PageListed urlIndex results p.slug := by rw [List.contains_iff_mem, hlisted]
  exact ⟨fun hpage => if_pos (hcontains.mpr hpage), fun hpage => if_neg (mt hcontains.mp hpage)⟩

/-- A list with the page of one problem. -/
def onePage : List Char := "Name,LeetCode URL\nTwo Sum,https://leetcode.com/problems/two-sum/\n".toList

/-- The records behind the header. -/
def onePageRecords : List (Except Csv.CsvError Csv.Record) :=
  [.ok ["Two Sum".toList, (problemUrl "two-sum").toList]]

/-- The list names one problem. -/
theorem listed_onePage {link : List Char} (h : Listed 1 onePageRecords link) :
    link = (problemUrl "two-sum").toList := by
  obtain ⟨record, hrecord, hlink⟩ := h
  unfold onePageRecords at hrecord
  rw [List.mem_singleton] at hrecord
  cases hrecord
  exact (Option.some.inj hlink).symm

/-- A list of one page marks its problem. -/
theorem seedProblemList_onePage : ∃ s',
    (seedProblemList .quiet Char.toLower .blind75 onePage).run .twoProblems = (.ok (), s') ∧
      s'.name = Named.twoProblems.name ∧
      s'.catalogue = Named.twoProblems.catalogue.withProblems s'.problems ∧
      List.Forall₂ (MarkedByPage .blind75 1 onePageRecords) Named.twoProblems.problems.rows
        s'.problems.rows := by
  have hplain : PlainSlug "two-sum" := ⟨by decide, by decide, by decide, by decide⟩
  have hpage : parseProblemSlug (problemUrl "two-sum") = some "two-sum" :=
    parseProblemSlug_problemUrl hplain
  refine seedProblemList_pages .quiet SeedEnv.quiet_quiet Char.toLower .blind75 onePage
    ["Name".toList, "LeetCode URL".toList] onePageRecords 1 (by decide +kernel) (by decide +kernel)
    ?_ ?_ ⟨"two-sum", (problemUrl "two-sum").toList, ⟨_, List.mem_singleton_self _, rfl⟩, ?_⟩
    .twoProblems
  · intro link hlink
    rw [listed_onePage hlink]
    exact address_problemUrl hplain
  · rintro slug ⟨link, hlink, hslug⟩
    rw [listed_onePage hlink, String.ofList_toList, hpage] at hslug
    obtain rfl := Option.some.inj hslug
    decide
  · rw [String.ofList_toList]
    exact hpage

end Bsg.Extension
