import Mathlib.Data.List.Basic
import Mathlib.Tactic.Common

/-!
# Texts behind separators

Texts are written one after the other, each with a separator in front of it (`write`). A text may
have separators of its own, and then other texts are written the same. Both are cut in front of
every separator (`pieces`): two lists of texts are written the same exactly when they have the same
pieces (`write_eq_iff`), and they are the same list exactly when, besides, the separators fall on
their texts alike (`eq_iff_pieces`).

`column` is what `List.intercalate` writes.
-/

namespace Bsg.Foundations.Pieces

/-- A text and the separator in front of it. -/
abbrev Piece (α : Type) := α × List α

section Write

variable {α : Type}

/-- The texts one after the other. -/
def write (xs : List (Piece α)) : List α := xs.flatMap fun x => x.1 :: x.2

/-- No pieces are no text. -/
theorem write_nil : write ([] : List (Piece α)) = [] := rfl

/-- The first piece is written with its separator before it. -/
theorem write_cons (s : α) (text : List α) (xs : List (Piece α)) :
    write ((s, text) :: xs) = s :: (text ++ write xs) := List.flatMap_cons

/-- Pieces are written one after the other. -/
theorem write_append (xs ys : List (Piece α)) : write (xs ++ ys) = write xs ++ write ys :=
  List.flatMap_append

/-- Texts behind a first separator and with another one between them. Where there is no text, an
empty one is written. -/
def column (first sep : α) : List (List α) → List (Piece α)
  | [] => [(first, [])]
  | text :: texts => (first, text) :: texts.map fun text => (sep, text)

/-- A column is written with a separator between its texts. -/
theorem write_column (first sep : α) (texts : List (List α)) :
    write (column first sep texts) = first :: List.intercalate [sep] texts := by
  have hrest : ∀ (text : List α) (texts : List (List α)),
      text ++ write (texts.map fun text => (sep, text)) = List.intercalate [sep] (text :: texts) := by
    intro text texts
    induction texts generalizing text with
    | nil => rw [List.map_nil, write_nil, List.append_nil, List.intercalate_singleton]
    | cons text' texts ih =>
      rw [List.map_cons, write_cons, ih, List.intercalate_cons_cons, List.append_assoc]
      rfl
  cases texts with
  | nil => rfl
  | cons text texts => rw [column, write_cons, hrest]

/-- What is in joined texts is a separator or in one of them. -/
theorem mem_of_mem_intercalate {c sep : α} {texts : List (List α)}
    (h : c ∈ List.intercalate [sep] texts) : c = sep ∨ ∃ text ∈ texts, c ∈ text := by
  induction texts with
  | nil => cases h
  | cons text texts ih =>
    cases texts with
    | nil =>
      rw [List.intercalate_singleton] at h
      exact Or.inr ⟨text, List.mem_cons_self, h⟩
    | cons text' texts =>
      rw [List.intercalate_cons_cons, List.append_assoc, List.mem_append, List.singleton_append,
        List.mem_cons] at h
      rcases h with htext | hsep | hrest
      · exact Or.inr ⟨text, List.mem_cons_self, htext⟩
      · exact Or.inl hsep
      · refine (ih hrest).imp_right ?_
        rintro ⟨text'', hmem, hc⟩
        exact ⟨text'', List.mem_cons_of_mem text hmem, hc⟩

/-- Texts without separators are known when they are joined; but a single empty text is joined like
none. -/
theorem intercalate_inj [DecidableEq α] {sep : α} {texts texts' : List (List α)}
    (hplain : ∀ text ∈ texts, sep ∉ text) (hplain' : ∀ text ∈ texts', sep ∉ text)
    (hne : texts ≠ [[]]) (hne' : texts' ≠ [[]])
    (h : List.intercalate [sep] texts = List.intercalate [sep] texts') : texts = texts' := by
  have hsplit := congrArg (List.splitOn sep) h
  by_cases hnil : texts = []
  · by_cases hnil' : texts' = []
    · rw [hnil, hnil']
    · rw [hnil, List.splitOn_intercalate sep hplain' hnil'] at hsplit
      exact absurd hsplit.symm hne'
  · rw [List.splitOn_intercalate sep hplain hnil] at hsplit
    by_cases hnil' : texts' = []
    · rw [hnil'] at hsplit
      exact absurd hsplit hne
    · rw [hsplit, List.splitOn_intercalate sep hplain' hnil']

/-- In a column every text is behind one of the two separators. -/
theorem sep_of_mem_column {first sep : α} {texts : List (List α)} {x : Piece α}
    (h : x ∈ column first sep texts) : x.1 = first ∨ x.1 = sep := by
  cases texts with
  | nil => exact Or.inl (congrArg Prod.fst (List.mem_singleton.mp h))
  | cons text texts =>
    rcases List.mem_cons.mp h with rfl | hrest
    · exact Or.inl rfl
    · obtain ⟨text', -, rfl⟩ := List.mem_map.mp hrest
      exact Or.inr rfl

/-- As many texts in the same column are the same texts. -/
theorem column_inj {first sep : α} {texts texts' : List (List α)}
    (hlength : texts.length = texts'.length)
    (h : column first sep texts = column first sep texts') : texts = texts' := by
  cases texts with
  | nil => exact (List.length_eq_zero_iff.mp hlength.symm).symm
  | cons text texts =>
    cases texts' with
    | nil => cases hlength
    | cons text' texts' =>
      obtain ⟨hhead, htail⟩ := List.cons.inj h
      rw [(Prod.mk.inj hhead).2,
        List.map_injective_iff.mpr (fun _ _ hpair => (Prod.mk.inj hpair).2) htail]

/-- A column has a piece for each text. -/
theorem length_column {first sep : α} {texts texts' : List (List α)}
    (hlength : texts.length = texts'.length) :
    (column first sep texts).length = (column first sep texts').length := by
  cases texts with
  | nil => rw [List.length_eq_zero_iff.mp hlength.symm]
  | cons text texts =>
    cases texts' with
    | nil => cases hlength
    | cons text' texts' =>
      rw [List.length_cons, List.length_cons] at hlength
      rw [column, column, List.length_cons, List.length_cons, List.length_map, List.length_map,
        hlength]

end Write

section Cut

variable {α : Type} (isSep : α → Bool)

/-- What stands in front of the first separator of a text, and the pieces from there on. -/
def cut : List α → List α × List (Piece α)
  | [] => ([], [])
  | c :: cs =>
    -- A separator starts a piece, and what stands in front of it is over.
    if isSep c then ([], (c, (cut cs).1) :: (cut cs).2) else (c :: (cut cs).1, (cut cs).2)

/-- A text that is cut in front of every separator in it. -/
def cutPiece (x : Piece α) : List (Piece α) := (x.1, (cut isSep x.2).1) :: (cut isSep x.2).2

/-- Texts that are cut in front of every separator. -/
def pieces (xs : List (Piece α)) : List (Piece α) := xs.flatMap (cutPiece isSep)

/-- How many separators each text has. -/
def separators (xs : List (Piece α)) : List ℕ := xs.map fun x => x.2.countP isSep

variable {isSep}

/-- Cutting further cuts each piece by itself. -/
theorem pieces_cons (x : Piece α) (xs : List (Piece α)) :
    pieces isSep (x :: xs) = cutPiece isSep x ++ pieces isSep xs := List.flatMap_cons

/-- Cutting further cuts two lists of pieces by themselves. -/
theorem pieces_append (xs ys : List (Piece α)) :
    pieces isSep (xs ++ ys) = pieces isSep xs ++ pieces isSep ys := List.flatMap_append

/-- Each piece has its own number of separators. -/
theorem separators_cons (x : Piece α) (xs : List (Piece α)) :
    separators isSep (x :: xs) = x.2.countP isSep :: separators isSep xs := rfl

/-- The numbers of two lists are one after the other. -/
theorem separators_append (xs ys : List (Piece α)) :
    separators isSep (xs ++ ys) = separators isSep xs ++ separators isSep ys := List.map_append

/-- The separators in a column are those in its texts. -/
theorem separators_column {first sep : α} {texts texts' : List (List α)}
    (h : texts.map (·.countP isSep) = texts'.map (·.countP isSep)) :
    separators isSep (column first sep texts) = separators isSep (column first sep texts') := by
  cases texts with
  | nil => rw [List.map_eq_nil_iff.mp h.symm]
  | cons text texts =>
    cases texts' with
    | nil => cases h
    | cons text' texts' =>
      unfold separators column
      rw [List.map_cons, List.map_cons, List.map_map, List.map_map]
      exact h

/-- What was cut is still there. -/
theorem write_cut (text : List α) : (cut isSep text).1 ++ write (cut isSep text).2 = text := by
  induction text with
  | nil => rfl
  | cons c cs ih =>
    rw [cut]
    split_ifs
    · rw [write_cons, ih, List.nil_append]
    · rw [List.cons_append, ih]

/-- A piece that is cut further is written as before. -/
theorem write_cutPiece (x : Piece α) : write (cutPiece isSep x) = x.1 :: x.2 := by
  rw [cutPiece, write_cons, write_cut]

variable (isSep) in
/-- So are all pieces. -/
theorem write_pieces (xs : List (Piece α)) : write (pieces isSep xs) = write xs := by
  induction xs with
  | nil => rfl
  | cons x xs ih => rw [pieces_cons, write_append, write_cutPiece, ih, write_cons, List.cons_append]

/-- A text is known by its pieces. -/
theorem cutPiece_injective : Function.Injective (cutPiece isSep) := by
  intro x y h
  have hwritten := congrArg write h
  rw [write_cutPiece, write_cutPiece] at hwritten
  obtain ⟨hsep, htext⟩ := List.cons.inj hwritten
  exact Prod.ext hsep htext

/-- A separator starts one more piece. -/
theorem length_cutPiece (x : Piece α) : (cutPiece isSep x).length = x.2.countP isSep + 1 := by
  have hcut : ∀ text : List α, (cut isSep text).2.length = text.countP isSep := by
    intro text
    induction text with
    | nil => rfl
    | cons c cs ih =>
      rw [cut, List.countP_cons]
      split_ifs
      · rw [List.length_cons, ih]
      · exact ih
  rw [cutPiece, List.length_cons, hcut]

/-- Texts without separators are not cut. -/
theorem pieces_of_plain {xs : List (Piece α)} (h : ∀ x ∈ xs, ∀ c ∈ x.2, isSep c = false) :
    pieces isSep xs = xs := by
  have hcut : ∀ text : List α, (∀ c ∈ text, isSep c = false) → cut isSep text = (text, []) := by
    intro text htext
    induction text with
    | nil => rfl
    | cons c cs ih =>
      obtain ⟨hc, hcs⟩ := List.forall_mem_cons.mp htext
      rw [cut, hc, ih hcs]
      rfl
  induction xs with
  | nil => rfl
  | cons x xs ih =>
    obtain ⟨hx, hxs⟩ := List.forall_mem_cons.mp h
    rw [pieces_cons, cutPiece, hcut x.2 hx, ih hxs]
    rfl

/-- In front of a separator a text is cut, whatever follows. -/
theorem cut_append_cons {s : α} (hs : isSep s = true) (text rest : List α) :
    cut isSep (text ++ s :: rest) =
      ((cut isSep text).1, (cut isSep text).2 ++ cutPiece isSep (s, rest)) := by
  induction text with
  | nil => exact if_pos hs
  | cons c cs ih =>
    rw [List.cons_append, cut, cut, ih]
    split_ifs
    · rfl
    · rfl

/-- The pieces are found again in what is written. -/
theorem cut_append_write {xs : List (Piece α)} (h : ∀ x ∈ xs, isSep x.1 = true) (text : List α) :
    cut isSep (text ++ write xs) = ((cut isSep text).1, (cut isSep text).2 ++ pieces isSep xs) := by
  induction xs generalizing text with
  | nil => rw [write_nil, List.append_nil, pieces, List.flatMap_nil, List.append_nil]
  | cons x xs ih =>
    obtain ⟨hx, hxs⟩ := List.forall_mem_cons.mp h
    rw [write_cons, cut_append_cons hx, cutPiece, ih hxs, pieces_cons]
    rfl

section Same

variable {xs ys : List (Piece α)}

/-- Two lists of texts are written the same exactly when they have the same pieces. -/
theorem write_eq_iff (hxs : ∀ x ∈ xs, isSep x.1 = true) (hys : ∀ y ∈ ys, isSep y.1 = true) :
    write xs = write ys ↔ pieces isSep xs = pieces isSep ys := by
  constructor
  · intro h
    -- Cutting what is written gives the pieces, so they depend on it only.
    have hcut : ∀ zs : List (Piece α), (∀ z ∈ zs, isSep z.1 = true) →
        (cut isSep (write zs)).2 = pieces isSep zs :=
      fun zs hzs => congrArg Prod.snd (cut_append_write hzs [])
    rw [← hcut xs hxs, ← hcut ys hys, h]
  · intro h
    rw [← write_pieces isSep xs, h, write_pieces]

variable (isSep) in
/-- Texts with the same pieces are the same exactly when the separators fall on them alike. -/
theorem eq_iff_pieces :
    xs = ys ↔ pieces isSep xs = pieces isSep ys ∧ separators isSep xs = separators isSep ys := by
  constructor
  · rintro rfl
    exact ⟨rfl, rfl⟩
  · rintro ⟨hpieces, hseparators⟩
    -- The pieces come in blocks, one for each text, and the separators tell where a block ends.
    have hlengths : (xs.map (cutPiece isSep)).map List.length =
        (ys.map (cutPiece isSep)).map List.length := by
      have hlength : ∀ zs : List (Piece α), (zs.map (cutPiece isSep)).map List.length =
          (separators isSep zs).map (· + 1) := by
        intro zs
        rw [separators, List.map_map, List.map_map]
        exact List.map_congr_left fun z _ => length_cutPiece z
      rw [hlength, hlength, hseparators]
    exact List.map_injective_iff.mpr cutPiece_injective
      (List.eq_iff_flatten_eq.mpr ⟨hpieces, hlengths⟩)

end Same

end Cut

end Bsg.Foundations.Pieces
