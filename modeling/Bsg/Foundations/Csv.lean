import Mathlib.Data.List.Basic
import Mathlib.Tactic.Common

/-!
# Comma-separated values

The format that Go's `encoding/csv` writes and reads, with a comma between fields. The writer quotes
a field that has a comma, a quote or a line break, or begins with a space. The reader goes through
the text once (`scan`): it skips empty lines, and after an error goes on with the next line.

`parse_render`: what is written is read back, when no field has a carriage return and no record is
empty.
-/

namespace Bsg.Foundations.Csv

/-- Why a record cannot be read. -/
inductive CsvError where
  | bareQuote
  | quote
  | fieldCount
  deriving DecidableEq, Repr

/-- A record: the texts of its fields. -/
abbrev Record := List (List Char)

/-! ## Writing -/

/-- The fields that are written in quotes; `space` tells what counts as a space. -/
def needsQuotes (space : Char → Bool) (field : List Char) : Bool :=
  field == ['\\', '.'] || field.any (fun c => c == '\n' || c == '\r' || c == '"' || c == ',') ||
    field.head?.any space

/-- A field in quotes. -/
def quoted (field : List Char) : List Char :=
  '"' :: (field.flatMap (fun c => if c = '"' then ['"', '"'] else [c]) ++ ['"'])

def renderField (space : Char → Bool) (field : List Char) : List Char :=
  if needsQuotes space field then quoted field else field

/-- A record and its line break. -/
def renderRecord (space : Char → Bool) (record : Record) : List Char :=
  List.intercalate [','] (record.map (renderField space)) ++ ['\n']

/-- A file of records. -/
def render (space : Char → Bool) (records : List Record) : List Char :=
  records.flatMap (renderRecord space)

/-! ## Reading -/

/-- A carriage return before a line break is dropped, and one at the end of the text. -/
def normalize : List Char → List Char
  | [] => []
  | ['\r'] => []
  | '\r' :: '\n' :: cs => '\n' :: normalize cs
  | c :: cs => c :: normalize cs

/-- Where the reader stands: at the beginning of a line, at the beginning of a field, in a field
without quotes, in one with quotes, behind a quote in such a field, or in the rest of a line with an
error. -/
inductive Mode where
  | line
  | field
  | plain
  | quoted
  | closed
  | failed
  deriving DecidableEq, Repr

/-- Reads the records of a text; the fields read so far, and the characters of the field being read,
come in reverse. -/
def scan : Mode → List Char → Record → List Char → List (Except CsvError Record)
  | .line, _, _, [] => []
  | .line, _, _, c :: cs =>
    if c = '\n' then scan .line [] [] cs
    else if c = '"' then scan .quoted [] [] cs
    else if c = ',' then scan .field [] [[]] cs
    else scan .plain [c] [] cs
  | .field, _, fields, [] => [.ok ([] :: fields).reverse]
  | .field, _, fields, c :: cs =>
    if c = '\n' then .ok ([] :: fields).reverse :: scan .line [] [] cs
    else if c = '"' then scan .quoted [] fields cs
    else if c = ',' then scan .field [] ([] :: fields) cs
    else scan .plain [c] fields cs
  | .plain, chars, fields, [] => [.ok (chars.reverse :: fields).reverse]
  | .plain, chars, fields, c :: cs =>
    if c = '\n' then .ok (chars.reverse :: fields).reverse :: scan .line [] [] cs
    else if c = '"' then .error .bareQuote :: scan .failed [] [] cs
    else if c = ',' then scan .field [] (chars.reverse :: fields) cs
    else scan .plain (c :: chars) fields cs
  | .quoted, _, _, [] => [.error .quote]
  | .quoted, chars, fields, c :: cs =>
    if c = '"' then scan .closed chars fields cs
    else scan .quoted (c :: chars) fields cs
  | .closed, chars, fields, [] => [.ok (chars.reverse :: fields).reverse]
  | .closed, chars, fields, c :: cs =>
    if c = '\n' then .ok (chars.reverse :: fields).reverse :: scan .line [] [] cs
    else if c = '"' then scan .quoted ('"' :: chars) fields cs
    else if c = ',' then scan .field [] (chars.reverse :: fields) cs
    else .error .quote :: scan .failed [] [] cs
  | .failed, _, _, [] => []
  | .failed, _, _, c :: cs => if c = '\n' then scan .line [] [] cs else scan .failed [] [] cs

/-- A record with another number of fields than the first one is an error. -/
def checkCount (n : ℕ) : Except CsvError Record → Except CsvError Record
  | .ok record => if record.length = n then .ok record else .error .fieldCount
  | .error e => .error e

/-- What reading a text gives, record by record. -/
def parse (text : List Char) : List (Except CsvError Record) :=
  match scan .line [] [] (normalize text) with
  | [] => []
  | .error e :: results => .error e :: results
  | .ok record :: results => .ok record :: results.map (checkCount record.length)

/-! ## Reading what was written -/

section RoundTrip

variable {space : Char → Bool} {chars : List Char} {fields : Record} {rest : List Char}

/-- The character does not end a field without quotes. -/
def Inner (c : Char) : Prop := c ≠ '\n' ∧ c ≠ '"' ∧ c ≠ ','

/-- A letter within a field without quotes. -/
theorem scan_plain_eq (c : Char) (cs : List Char) : scan .plain chars fields (c :: cs) =
    if c = '\n' then .ok (chars.reverse :: fields).reverse :: scan .line [] [] cs
    else if c = '"' then .error .bareQuote :: scan .failed [] [] cs
    else if c = ',' then scan .field [] (chars.reverse :: fields) cs
    else scan .plain (c :: chars) fields cs := rfl

/-- A letter at the beginning of a field. -/
theorem scan_field_eq (c : Char) (cs : List Char) : scan .field chars fields (c :: cs) =
    if c = '\n' then .ok ([] :: fields).reverse :: scan .line [] [] cs
    else if c = '"' then scan .quoted [] fields cs
    else if c = ',' then scan .field [] ([] :: fields) cs
    else scan .plain [c] fields cs := rfl

/-- A letter within a field in quotes. -/
theorem scan_quoted_eq (c : Char) (cs : List Char) : scan .quoted chars fields (c :: cs) =
    if c = '"' then scan .closed chars fields cs
    else scan .quoted (c :: chars) fields cs := rfl

/-- At the beginning of a line that is not empty, the reader is at the beginning of a field. -/
theorem scan_line_cons {c : Char} (h : c ≠ '\n') (cs : List Char) :
    scan .line [] [] (c :: cs) = scan .field [] [] (c :: cs) := by
  have hline : scan .line [] [] (c :: cs) =
      if c = '\n' then scan .line [] [] cs
      else if c = '"' then scan .quoted [] [] cs
      else if c = ',' then scan .field [] [[]] cs
      else scan .plain [c] [] cs := rfl
  rw [hline, scan_field_eq, if_neg h, if_neg h]

/-- A character that does not end the field is taken into it. -/
theorem scan_plain_cons {c : Char} (h : Inner c) (cs : List Char) :
    scan .plain chars fields (c :: cs) = scan .plain (c :: chars) fields cs := by
  obtain ⟨hbreak, hquote, hcomma⟩ := h
  rw [scan_plain_eq, if_neg hbreak, if_neg hquote, if_neg hcomma]

/-- A letter that has no meaning of its own begins a field without quotes. -/
theorem scan_field_cons {c : Char} (h : Inner c) (cs : List Char) :
    scan .field chars fields (c :: cs) = scan .plain [c] fields cs := by
  obtain ⟨hbreak, hquote, hcomma⟩ := h
  rw [scan_field_eq, if_neg hbreak, if_neg hquote, if_neg hcomma]

/-- A field without quotes is read up to its end. -/
theorem scan_plain_append : ∀ (field : List Char) {chars : List Char}, (∀ c ∈ field, Inner c) →
    scan .plain chars fields (field ++ rest) = scan .plain (field.reverse ++ chars) fields rest
  | [], _, _ => rfl
  | c :: field, chars, h => by
    rw [List.cons_append, scan_plain_cons (h c List.mem_cons_self),
      scan_plain_append field fun c' hc' => h c' (List.mem_cons_of_mem c hc'), List.reverse_cons,
      List.append_assoc]
    rfl

/-- A field with quotes is read up to its last quote. -/
theorem scan_quoted_append : ∀ (field : List Char) {chars : List Char},
    scan .quoted chars fields
        (field.flatMap (fun c => if c = '"' then ['"', '"'] else [c]) ++ '"' :: rest) =
      scan .closed (field.reverse ++ chars) fields rest
  | [], _ => rfl
  | c :: field, chars => by
    rw [List.flatMap_cons, List.reverse_cons, List.append_assoc field.reverse]
    by_cases hquote : c = '"'
    · subst hquote
      rw [if_pos rfl]
      exact scan_quoted_append field
    · rw [if_neg hquote]
      exact (scan_quoted_eq c _).trans ((if_neg hquote).trans (scan_quoted_append field))

/-- The letters of a field that needs no quotes have no meaning of their own. -/
theorem inner_of_not_needsQuotes {field : List Char} (h : needsQuotes space field = false) :
    ∀ c ∈ field, Inner c := by
  intro c hc
  unfold needsQuotes at h
  rw [Bool.or_eq_false_iff, Bool.or_eq_false_iff] at h
  have hany := List.any_eq_false.mp h.1.2 c hc
  simp only [Bool.or_eq_true, beq_iff_eq, not_or] at hany
  exact ⟨hany.1.1.1, hany.1.2, hany.2⟩

/-- A written field is read up to what ends it, wherever the reader then is. -/
theorem scan_renderField (after : List Char → List (Except CsvError Record))
    (hfield : scan .field [] fields rest = after [])
    (hplain : ∀ chars, scan .plain chars fields rest = after chars.reverse)
    (hclosed : ∀ chars, scan .closed chars fields rest = after chars.reverse) (field : List Char) :
    scan .field [] fields (renderField space field ++ rest) = after field := by
  unfold renderField
  cases hneeds : needsQuotes space field with
  | true =>
    rw [if_pos rfl]
    unfold quoted
    rw [List.cons_append, List.append_assoc]
    refine (scan_quoted_append field).trans ?_
    rw [List.append_nil]
    refine (hclosed field.reverse).trans ?_
    rw [List.reverse_reverse]
  | false =>
    rw [if_neg Bool.false_ne_true]
    have hinner := inner_of_not_needsQuotes hneeds
    cases field with
    | nil => exact hfield
    | cons c field =>
      rw [List.cons_append, scan_field_cons (hinner c List.mem_cons_self),
        scan_plain_append field fun c' hc' => hinner c' (List.mem_cons_of_mem c hc'), hplain,
        ← List.reverse_cons, List.reverse_reverse]

/-- A written field is read up to the comma behind it. -/
theorem scan_comma (field : List Char) :
    scan .field [] fields (renderField space field ++ ',' :: rest) =
      scan .field [] (field :: fields) rest := by
  refine scan_renderField (fun f => scan .field [] (f :: fields) rest) ?_ (fun _ => ?_)
    (fun _ => ?_) field <;> rfl

/-- The last field of a record is read up to the line break behind it. -/
theorem scan_break (field : List Char) :
    scan .field [] fields (renderField space field ++ '\n' :: rest) =
      .ok (field :: fields).reverse :: scan .line [] [] rest := by
  refine scan_renderField (fun f => .ok (f :: fields).reverse :: scan .line [] [] rest) ?_
    (fun _ => ?_) (fun _ => ?_) field <;> rfl

/-- Fields are written with a comma after the first. -/
theorem intercalate_cons (field next : List Char) (record : Record) :
    List.intercalate [','] ((field :: next :: record).map (renderField space)) =
      renderField space field ++
        ',' :: List.intercalate [','] ((next :: record).map (renderField space)) := by
  simp [List.intercalate]

/-- A written record is read up to its line break. -/
theorem scan_record : ∀ {record : Record} {fields : Record}, record ≠ [] →
    scan .field [] fields
        (List.intercalate [','] (record.map (renderField space)) ++ '\n' :: rest) =
      .ok (fields.reverse ++ record) :: scan .line [] [] rest
  | [], _, h => absurd rfl h
  | [field], fields, _ => by
    have hone : List.intercalate [','] ([field].map (renderField space)) = renderField space field :=
      List.append_nil _
    rw [hone, scan_break, List.reverse_cons]
  | field :: next :: record, fields, _ => by
    rw [intercalate_cons, List.append_assoc, List.cons_append, scan_comma,
      scan_record (List.cons_ne_nil _ _), List.reverse_cons, List.append_assoc]
    rfl

/-- The text of a field has no line break where it begins. -/
theorem renderField_head {field : List Char} {c : Char} {cs : List Char}
    (h : renderField space field = c :: cs) : c ≠ '\n' := by
  unfold renderField at h
  cases hneeds : needsQuotes space field with
  | true =>
    rw [hneeds, if_pos rfl] at h
    rw [← (List.cons.inj h).1]
    decide
  | false =>
    rw [hneeds, if_neg Bool.false_ne_true] at h
    exact (inner_of_not_needsQuotes hneeds c (h ▸ List.mem_cons_self)).1

/-- A field that is not empty is not written as nothing. -/
theorem renderField_ne_nil (space : Char → Bool) {field : List Char} (h : field ≠ []) :
    renderField space field ≠ [] := by
  unfold renderField
  split_ifs
  · exact List.cons_ne_nil _ _
  · exact h

/-- A record that is not empty does not begin with a line break. -/
theorem renderRecord_head {record : Record} (h : record ≠ []) (hempty : record ≠ [[]])
    (rest : List Char) :
    ∃ c cs, renderRecord space record ++ rest = c :: cs ∧ c ≠ '\n' := by
  unfold renderRecord
  rcases record with _ | ⟨field, _ | ⟨next, record⟩⟩
  · exact absurd rfl h
  · have hfield : field ≠ [] := fun hnil => hempty (hnil ▸ rfl)
    obtain ⟨c, cs, hcons⟩ := List.exists_cons_of_ne_nil (renderField_ne_nil space hfield)
    refine ⟨c, cs ++ ['\n'] ++ rest, ?_, renderField_head hcons⟩
    simp [List.intercalate, hcons]
  · rw [intercalate_cons]
    cases hfield : renderField space field with
    | nil => exact ⟨',', _, rfl, by decide⟩
    | cons c cs => exact ⟨c, _, rfl, renderField_head hfield⟩

/-- A record that is not empty is read at the beginning of a line. -/
theorem scan_line {record : Record} (h : record ≠ []) (hempty : record ≠ [[]]) :
    scan .line [] [] (renderRecord space record ++ rest) = .ok record :: scan .line [] [] rest := by
  obtain ⟨c, cs, hcons, hbreak⟩ := renderRecord_head h hempty rest
  rw [hcons, scan_line_cons hbreak, ← hcons]
  unfold renderRecord
  rw [List.append_assoc]
  exact scan_record h

/-- All records of a file are read. -/
theorem scan_render : ∀ {records : List Record}, (∀ record ∈ records, record ≠ [] ∧ record ≠ [[]]) →
    scan .line [] [] (render space records) = records.map .ok
  | [], _ => rfl
  | record :: records, h => by
    obtain ⟨hne, hempty⟩ := h record List.mem_cons_self
    unfold render
    rw [List.flatMap_cons, scan_line hne hempty, List.map_cons]
    exact congrArg _ (scan_render fun record' hrecord' => h record' (List.mem_cons_of_mem _ hrecord'))

/-- A text without carriage returns is read as it is. -/
theorem normalize_eq : ∀ {text : List Char}, '\r' ∉ text → normalize text = text
  | [], _ => rfl
  | c :: cs, h => by
    obtain ⟨hc, hcs⟩ := not_or.mp fun hor => h (List.mem_cons.mpr hor)
    rw [normalize]
    · rw [normalize_eq hcs]
    · intro hr
      exact absurd hr.symm hc
    · intro cs' hr
      exact absurd hr.symm hc

/-- Writing a field adds no carriage return. -/
theorem return_notMem_renderField {field : List Char} (h : '\r' ∉ field) :
    '\r' ∉ renderField space field := by
  unfold renderField quoted
  split_ifs
  · simp only [List.mem_cons, List.mem_append, List.mem_flatMap, List.not_mem_nil, or_false, not_or,
      not_exists, not_and]
    refine ⟨by decide, fun c hc hmem => ?_, by decide⟩
    split_ifs at hmem with hquote
    · revert hmem
      decide
    · rw [List.mem_singleton] at hmem
      exact h (hmem ▸ hc)
  · exact h

/-- What is in parts that were joined is the separator or in a part. -/
theorem mem_of_mem_intercalate {α : Type} {sep x : α} : ∀ {parts : List (List α)},
    x ∈ List.intercalate [sep] parts → x = sep ∨ ∃ part ∈ parts, x ∈ part
  | [], h => absurd h List.not_mem_nil
  | [part], h => by
    have hone : List.intercalate [sep] [part] = part := List.append_nil _
    rw [hone] at h
    exact Or.inr ⟨part, List.mem_cons_self, h⟩
  | part :: next :: parts, h => by
    have hcons : List.intercalate [sep] (part :: next :: parts) =
        part ++ sep :: List.intercalate [sep] (next :: parts) := by
      simp [List.intercalate]
    rw [hcons, List.mem_append, List.mem_cons] at h
    rcases h with hmem | hsep | hmem
    · exact Or.inr ⟨part, List.mem_cons_self, hmem⟩
    · exact Or.inl hsep
    · refine (mem_of_mem_intercalate hmem).imp_right fun ⟨part', hpart', hmem'⟩ => ?_
      exact ⟨part', List.mem_cons_of_mem _ hpart', hmem'⟩

/-- Nor does writing records. -/
theorem return_notMem_render {records : List Record}
    (h : ∀ record ∈ records, ∀ field ∈ record, '\r' ∉ field) : '\r' ∉ render space records := by
  intro hmem
  obtain ⟨record, hrecord, hmem⟩ := List.mem_flatMap.mp hmem
  unfold renderRecord at hmem
  rcases List.mem_append.mp hmem with hmem | hbreak
  · rcases mem_of_mem_intercalate hmem with hcomma | ⟨text, htext, hmem⟩
    · revert hcomma
      decide
    · obtain ⟨field, hfield, rfl⟩ := List.mem_map.mp htext
      exact return_notMem_renderField (h record hrecord field hfield) hmem
  · revert hbreak
    decide

/-- What is written is read back, when no field has a carriage return, no record is empty, and all
have as many fields. -/
theorem parse_render {records : List Record} {n : ℕ}
    (hreturn : ∀ record ∈ records, ∀ field ∈ record, '\r' ∉ field)
    (hempty : ∀ record ∈ records, record ≠ [] ∧ record ≠ [[]])
    (hcount : ∀ record ∈ records, record.length = n) :
    parse (render space records) = records.map .ok := by
  unfold parse
  rw [normalize_eq (return_notMem_render hreturn), scan_render hempty]
  cases records with
  | nil => rfl
  | cons record records =>
    rw [List.map_cons]
    dsimp only
    rw [List.map_map]
    refine congrArg _ (List.map_congr_left fun record' hrecord' => ?_)
    have hsame : record'.length = record.length :=
      (hcount record' (List.mem_cons_of_mem _ hrecord')).trans (hcount record List.mem_cons_self).symm
    exact if_pos hsame

end RoundTrip

end Bsg.Foundations.Csv
