import SealedChat.Proofs.Entries
import SealedChat.Proofs.Toml.Number
import SealedChat.Toml.Document

/-!
# Documents are read as they were written

A document of sections is written line by line and read line by line. Its sections have different
names and the entries of each have different keys, which need no quotes, so every line adds to the
table and none is refused: the document is read back as the table of its sections
(`parse_print`).
-/

namespace SealedChat.Toml

open Reading

variable {c d : Char} {r s t : List Char} {k : String} {v : Scalar}

/-! ## Keys -/

/-- A key that is written without quotes. -/
def IsBare (k : String) : Prop := k.toList ≠ [] ∧ k.toList.all isKeyChar = true

instance (k : String) : Decidable (IsBare k) := inferInstanceAs (Decidable (_ ∧ _))

/-- Characters at which something else begins. -/
theorem IsBare.exists_cons (hk : IsBare k) : ∃ c cs, k.toList = c :: cs ∧ isGap c = false ∧
    c ∉ ['"', '\'', '#', '[', '\n', '\r'] := by
  obtain ⟨hne, hchars⟩ := hk
  obtain ⟨c, cs, hcs⟩ := List.exists_cons_of_ne_nil hne
  have hc : isKeyChar c = true := List.all_eq_true.1 hchars c (by simp [hcs])
  have hother (d : Char) (hd : isKeyChar d = false) : c ≠ d := by
    rintro rfl
    rw [hc] at hd
    cases hd
  refine ⟨c, cs, hcs, ?_, ?_⟩
  · simp [isGap, hother ' ' (by decide), hother '\t' (by decide)]
  · simp only [List.mem_cons, List.not_mem_nil, or_false, not_or]
    exact ⟨hother _ (by decide), hother _ (by decide), hother _ (by decide), hother _ (by decide),
      hother _ (by decide), hother _ (by decide)⟩

theorem simpleKey_append (hk : IsBare k) (hd : isKeyChar d = false) (r : List Char) :
    simpleKey (k.toList ++ d :: r) = some (k, d :: r) := by
  have hspan := span₁_append hk.1 (List.all_eq_true.1 hk.2) hd r
  obtain ⟨c, cs, hcs, -, hc⟩ := hk.exists_cons
  simp only [List.mem_cons, List.not_mem_nil, or_false, not_or] at hc
  have hk : String.ofList (c :: cs) = k := by rw [← hcs, String.ofList_toList]
  rw [hcs, List.cons_append] at hspan ⊢
  simp [simpleKey, basicString, literalString, hc, hspan, hk]

/-- A key of one part, up to the character behind it and the blanks. -/
theorem key_append (hk : IsBare k) (hd : isKeyChar d = false) (hc : c ≠ '.')
    (hgap : gap (d :: r) = some ((), c :: s)) :
    key (k.toList ++ d :: r) = some ([k], c :: s) := by
  have hsimple := simpleKey_append hk hd r
  obtain ⟨c', cs, hcs, hgap', -⟩ := hk.exists_cons
  rw [hcs, List.cons_append] at hsimple ⊢
  have hrest : many (exactly '.' *> do gap; let k ← simpleKey; gap; return k) (c :: s) =
      some ([], c :: s) := many_of_none (by simp [hc])
  simp only [key, separated, bind_apply, gap_cons hgap', Option.bind_some, hsimple, hgap,
    pure_apply, hrest]
  rfl

/-! ## Lines -/

/-- Nothing that can be read as a value begins with a blank or a bracket. -/
theorem scalar_cons_eq_none (hc : c ∈ [' ', '\t', '[', '\x7b']) (r : List Char) :
    scalar (c :: r) = none := by
  simp only [List.mem_cons, List.not_mem_nil, or_false] at hc
  rcases hc with rfl | rfl | rfl | rfl <;> rfl

theorem value_of_scalar {x : Item × List Char} (h : scalar s = some x) (depth : Nat) :
    gap s = some ((), s) ∧ value depth s = some x := by
  cases s with
  | nil => cases h
  | cons c r =>
    have hc : c ∉ [' ', '\t', '[', '\x7b'] := by
      intro hm
      rw [scalar_cons_eq_none hm] at h
      cases h
    simp only [List.mem_cons, List.not_mem_nil, or_false, not_or] at hc
    refine ⟨gap_cons (by simp [isGap, hc]) r, ?_⟩
    cases depth with
    | zero => exact h
    | succ depth =>
      simp only [value]
      split
      case h_1 heq => exact absurd (List.cons.inj heq).1 hc.2.2.1
      case h_2 heq => exact absurd (List.cons.inj heq).1 hc.2.2.2
      case h_3 => exact h

theorem lineRest_newline (r : List Char) : lineRest ('\n' :: r) = some ((), r) := rfl

theorem line_newline (r : List Char) : line ('\n' :: r) = some (.empty, r) := rfl

theorem line_header (hk : IsBare k) (r : List Char) :
    line ('[' :: k.toList ++ "]\n".toList ++ r) = some (.header [k], r) := by
  have hkey : key (k.toList ++ ']' :: '\n' :: r) = some ([k], ']' :: '\n' :: r) :=
    key_append hk (by decide) (by decide) (gap_cons (by decide) _)
  have hrow : attempt (exactly '[') (k.toList ++ ']' :: '\n' :: r) =
      some (none, k.toList ++ ']' :: '\n' :: r) := by
    obtain ⟨c, cs, hcs, -, hc⟩ := hk.exists_cons
    simp only [List.mem_cons, List.not_mem_nil, or_false, not_or] at hc
    exact attempt_of_none (by simp [hcs, hc])
  have hw : '[' :: k.toList ++ "]\n".toList ++ r = '[' :: (k.toList ++ ']' :: '\n' :: r) := by
    simp
  rw [hw]
  simp [line, hrow, hkey, lineRest_newline]

theorem line_entry (hk : IsBare k) (hv : v.Fits) (r : List Char) :
    line (printEntry (k, v) ++ r) = some (.entry [k] v.item, r) := by
  obtain ⟨hgap, hvalue⟩ := value_of_scalar (scalar_printScalar hv r) (nestingLimit - 1)
  have hkey : key (k.toList ++ ' ' :: '=' :: ' ' :: (printScalar v ++ '\n' :: r)) =
      some ([k], '=' :: ' ' :: (printScalar v ++ '\n' :: r)) :=
    key_append hk (by decide) (by decide) ((gap_space _).trans (gap_cons (by decide) _))
  have hw : printEntry (k, v) ++ r =
      k.toList ++ ' ' :: '=' :: ' ' :: (printScalar v ++ '\n' :: r) := by
    simp [printEntry]
  obtain ⟨c, cs, hcs, -, hc⟩ := hk.exists_cons
  simp only [List.mem_cons, List.not_mem_nil, or_false, not_or] at hc
  rw [hw]
  rw [hcs, List.cons_append] at hkey ⊢
  simp [line, hc, hkey, gap_space, hgap, hvalue, lineRest_newline]

/-! ## Lines in a row -/

/-- A line, and the blanks in front of the next. -/
def nextLine : Reading Line := do
  let l ← line
  gap
  return l

theorem nextLine_of_line {w : List Char} {l : Line} (h : line w = some (l, s))
    (hs : gap s = some ((), s)) : nextLine w = some (l, s) := by
  simp [nextLine, h, hs]

def entryLine (e : String × Scalar) : Line := .entry [e.1] e.2.item

def sectionLines (x : String × Section) : List Line := .header [x.1] :: x.2.map entryLine

def documentLines : List (String × Section) → List Line
  | [] => []
  | [x] => sectionLines x
  | x :: y :: xs => sectionLines x ++ .empty :: documentLines (y :: xs)

/-- A section that is written without quotes around its name and its keys, and whose numbers can be
read. -/
structure IsPlainSection (x : String × Section) : Prop where
  name : IsBare x.1
  entries : ∀ e ∈ x.2, IsBare e.1 ∧ e.2.Fits

variable {ls : List Line} {x : String × Section} {xs : List (String × Section)}

theorem repeats_entries {es : Section} (hes : ∀ e ∈ es, IsBare e.1 ∧ e.2.Fits)
    (hs : gap s = some ((), s)) (h : Repeats nextLine s ls t) :
    gap (es.flatMap printEntry ++ s) = some ((), es.flatMap printEntry ++ s) ∧
      Repeats nextLine (es.flatMap printEntry ++ s) (es.map entryLine ++ ls) t := by
  induction es with
  | nil => exact ⟨hs, h⟩
  | cons e es ih =>
    rw [List.forall_mem_cons] at hes
    obtain ⟨hgap, hlines⟩ := ih hes.2
    have hline := line_entry hes.1.1 hes.1.2 (es.flatMap printEntry ++ s)
    obtain ⟨c, cs, hcs, hc, -⟩ := hes.1.1.exists_cons
    have hw : printEntry e = c :: (cs ++ " = ".toList ++ printScalar e.2 ++ ['\n']) := by
      simp [printEntry, hcs]
    rw [List.flatMap_cons, List.append_assoc, List.map_cons, List.cons_append]
    refine ⟨?_, hlines.append (by simp [hw]) (nextLine_of_line hline hgap)⟩
    rw [hw, List.cons_append]
    exact gap_cons hc _

theorem repeats_section (hx : IsPlainSection x) (hs : gap s = some ((), s))
    (h : Repeats nextLine s ls t) :
    Repeats nextLine (printSection x ++ s) (sectionLines x ++ ls) t := by
  obtain ⟨hgap, hlines⟩ := repeats_entries hx.entries hs h
  have hline := line_header hx.name (x.2.flatMap printEntry ++ s)
  rw [printSection, sectionLines, List.cons_append, List.append_assoc]
  exact hlines.append (by simp) (nextLine_of_line hline hgap)

theorem gap_printSection (x : String × Section) (s : List Char) :
    gap (printSection x ++ s) = some ((), printSection x ++ s) := by
  simp only [printSection, List.cons_append]
  exact gap_cons (by decide) _

/-- The text of a document. -/
def documentText (xs : List (String × Section)) : List Char :=
  Words.join '\n' (xs.map printSection)

theorem documentText_cons (x : String × Section) (xs : List (String × Section)) :
    ∃ s, documentText (x :: xs) = printSection x ++ s := by
  cases xs with
  | nil => exact ⟨[], (List.append_nil _).symm⟩
  | cons y xs => exact ⟨_, rfl⟩

theorem gap_documentText (xs : List (String × Section)) :
    gap (documentText xs) = some ((), documentText xs) := by
  cases xs with
  | nil => rfl
  | cons x xs =>
    obtain ⟨s, hs⟩ := documentText_cons x xs
    rw [hs]
    exact gap_printSection x s

/-- A document of sections is read line by line to its end. -/
theorem repeats_document (h : ∀ x ∈ xs, IsPlainSection x) :
    Repeats nextLine (documentText xs) (documentLines xs) [] := by
  induction xs with
  | nil => exact .nil rfl
  | cons x xs ih =>
    rw [List.forall_mem_cons] at h
    have hrest := ih h.2
    cases xs with
    | nil => simpa [documentText, Words.join, documentLines] using repeats_section h.1 rfl hrest
    | cons y xs =>
      have hempty : Repeats nextLine ('\n' :: documentText (y :: xs))
          (.empty :: documentLines (y :: xs)) [] :=
        hrest.append (List.cons_ne_nil '\n' [])
          (nextLine_of_line (line_newline _) (gap_documentText _))
      exact repeats_section h.1 (gap_cons (by decide) _) hempty

theorem lines_print (h : ∀ x ∈ xs, IsPlainSection x) :
    lines (print xs).toList = some (documentLines xs, []) := by
  have hmark : attempt (exactly '\uFEFF') (documentText xs) = some (none, documentText xs) := by
    refine attempt_of_none ?_
    cases xs with
    | nil => rfl
    | cons x xs =>
      obtain ⟨s, hs⟩ := documentText_cons x xs
      simp [hs, printSection]
  have hlines := (repeats_document h).many
  unfold nextLine at hlines
  rw [print, String.toList_ofList]
  change lines (documentText xs) = _
  simp only [lines, bind_apply, hmark, Option.bind_some, gap_documentText, hlines, finished_nil,
    pure_apply]

/-! ## The table -/

namespace Table

theorem set_of_not_mem {t : Table} {key : String} (h : key ∉ t.map Prod.fst) (i : Item) :
    set t key i = t ++ [(key, i)] := by
  have hany : t.any (·.1 = key) = false := by
    rw [List.any_eq_false]
    intro e he
    simpa using fun heq => h (List.mem_map.2 ⟨e, he, heq⟩)
  rw [set, hany]
  rfl

theorem lookup_of_not_mem {t : Table} {key : String} (h : key ∉ t.map Prod.fst) :
    t.lookup key = none :=
  Option.not_isSome_iff_eq_none.1 fun hsome => h (Entries.isSome_lookup_iff.1 hsome)

/-- A key that is not there yet can be added. -/
theorem add_of_not_mem {t : Table} {key : String} (h : key ∉ t.map Prod.fst) (i : Item) :
    add key i t = some ((), t ++ [(key, i)]) := by
  rw [add, lookup_of_not_mem h, set_of_not_mem h]
  rfl

end Table

/-- The entries of a section in a table. -/
def entriesTable (es : Section) : Table := es.map fun e => (e.1, e.2.item)

/-- The table of a document. -/
def documentTable (xs : List (String × Section)) : Table :=
  xs.map fun x => (x.1, .table .header (entriesTable x.2))

namespace Draft

variable {d : Draft} {table : Table}

theorem add_entry {e : String × Scalar} (h : e.1 ∉ d.current.map Prod.fst) :
    d.add (entryLine e) = some { d with current := d.current ++ [(e.1, e.2.item)] } := by
  simp [add, entryLine, Table.addDotted, Table.change, Table.add_of_not_mem h]

theorem add_entries {es : Section} (h : (d.current.map Prod.fst ++ es.map Prod.fst).Nodup) :
    (es.map entryLine).foldlM add d =
      some { d with current := d.current ++ entriesTable es } := by
  induction es generalizing d with
  | nil => simp [entriesTable]
  | cons e es ih =>
    rw [List.map_cons] at h
    have hne : e.1 ∉ d.current.map Prod.fst := by
      intro hm
      exact (List.nodup_append.1 h).2.2 e.1 hm e.1 (List.mem_cons_self ..) rfl
    rw [List.map_cons, List.foldlM_cons, add_entry hne, Option.bind_eq_bind, Option.bind_some, ih]
    · simp [entriesTable]
    · simpa using h

/-- A table whose header is next. -/
theorem add_header {name : String} (hd : d.finish = some table)
    (h : name ∉ table.map Prod.fst) :
    d.add (.header [name]) = some ⟨table, [], [name], false⟩ := by
  simp [add, hd, beginTable, Table.change, Table.lookup_of_not_mem h]

theorem finish_section {name : String} {es : Table} (h : name ∉ table.map Prod.fst) :
    finish ⟨table, es, [name], false⟩ = some (table ++ [(name, .table .header es)]) := by
  simp [finish, Table.change, Table.add_of_not_mem h]

/-- Sections that follow each other, each with a name that is not there yet. -/
theorem add_document {xs : List (String × Section)}
    (hnames : (table.map Prod.fst ++ xs.map Prod.fst).Nodup)
    (hkeys : ∀ x ∈ xs, (x.2.map Prod.fst).Nodup) (hd : d.finish = some table) :
    ((documentLines xs).foldlM add d).bind finish = some (table ++ documentTable xs) := by
  induction xs generalizing d table with
  | nil => simp [documentLines, documentTable, hd]
  | cons x xs ih =>
    rw [List.forall_mem_cons] at hkeys
    rw [List.map_cons] at hnames
    have hne : x.1 ∉ table.map Prod.fst := by
      intro hm
      exact (List.nodup_append.1 hnames).2.2 x.1 hm x.1 (List.mem_cons_self ..) rfl
    have hsection : (sectionLines x).foldlM add d =
        some ⟨table, entriesTable x.2, [x.1], false⟩ := by
      rw [sectionLines, List.foldlM_cons, add_header hd hne, Option.bind_eq_bind, Option.bind_some,
        add_entries (by simpa using hkeys.1)]
      rfl
    have hfinish : finish ⟨table, entriesTable x.2, [x.1], false⟩ =
        some (table ++ [(x.1, .table .header (entriesTable x.2))]) := finish_section hne
    have hrest := ih (by simpa using hnames) hkeys.2 hfinish
    cases xs with
    | nil => simp [documentLines, hsection, hfinish, documentTable]
    | cons y xs =>
      rw [documentLines, List.foldlM_append, hsection]
      simpa [add, documentTable] using hrest

end Draft

/-- Sections with different names that need no quotes, each with different keys that need none, and
numbers that can be read. -/
structure IsPlainDocument (xs : List (String × Section)) : Prop where
  sections : ∀ x ∈ xs, IsPlainSection x
  names : (xs.map Prod.fst).Nodup
  keys : ∀ x ∈ xs, (x.2.map Prod.fst).Nodup

/-- **Documents are read as they were written.** -/
theorem parse_print (h : IsPlainDocument xs) : parse (print xs) = some (documentTable xs) := by
  have hdraft : ((documentLines xs).foldlM Draft.add .empty).bind Draft.finish =
      some ([] ++ documentTable xs) := Draft.add_document h.names h.keys rfl
  simp only [parse, lines_print h.sections, Option.bind_eq_bind, Option.bind_some]
  exact hdraft

end SealedChat.Toml
