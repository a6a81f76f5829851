import Mathlib.Data.List.DropRight
import SealedChat.Proofs.Files.Tree

/-!
# The directory above a file

The path above a path is a part of its text, from which idle steps at the end are left out. So its
steps are not those above the last name, but they lead to the same directory
(`isDirectory_iff_of_leads`), and a file has a place just when nothing bars it there
(`exists_place_iff`).
-/

namespace SealedChat

/-! ## The path above -/

namespace Path

variable {w name : List Char} {ws above body idles : List (List Char)} {p q : Path}

theorem settle_eq_rdropWhile (ws : List (List Char)) : settle ws = ws.rdropWhile isIdle := rfl

theorem settle_append_of_idle (h : ∀ w ∈ idles, isIdle w) : settle (ws ++ idles) = settle ws := by
  induction idles using List.reverseRecOn with
  | nil => rw [List.append_nil]
  | append_singleton idles w ih =>
    rw [← List.append_assoc, settle_eq_rdropWhile, List.rdropWhile_concat_pos _ _ _ (h w (by simp))]
    exact ih fun v hv => h v (List.mem_append_left _ hv)

/-- What is left out at the end of steps is idle. -/
theorem exists_eq_settle_append (ws : List (List Char)) :
    ∃ idles, ws = settle ws ++ idles ∧ ∀ w ∈ idles, isIdle w :=
  ⟨ws.rtakeWhile isIdle, List.rdropWhile_append_rtakeWhile.symm,
    fun _ h => List.mem_rtakeWhile_imp h⟩

theorem settle_isPrefix (ws : List (List Char)) : settle ws <+: ws := List.rdropWhile_prefix _ _

theorem settle_cons_settle (w : List Char) (ws : List (List Char)) :
    settle (w :: settle ws) = settle (w :: ws) := by
  obtain ⟨idles, heq, hidle⟩ := exists_eq_settle_append ws
  conv_rhs => rw [heq, ← List.cons_append, settle_append_of_idle hidle]

theorem settle_settle (ws : List (List Char)) : settle (settle ws) = settle ws :=
  List.rdropWhile_idempotent _ _

theorem above?_snoc (h : ¬isIdle name) : above? (ws ++ [name]) = some (settle ws) := by
  have hsettle : settle (ws ++ [name]) = ws ++ [name] := List.rdropWhile_concat_neg _ _ _ h
  cases hws : ws ++ [name] with
  | nil => simp at hws
  | cons first rest =>
    rw [hws] at hsettle
    simp only [above?, hsettle]
    rw [← hws, List.dropLast_concat]

theorem split_join_settle (h : settle ws ≠ []) (hsep : ∀ w ∈ ws, '/' ∉ w) :
    Words.split '/' (Words.join '/' (settle ws)) = settle ws :=
  Words.split_join h fun w hw => hsep w ((settle_isPrefix ws).subset hw)

theorem parent?_of_root (h : Words.split '/' p.text.toList = [] :: body)
    (habove : above? body = some above) :
    p.parent? = some ⟨String.ofList ('/' :: Words.join '/' above)⟩ := by
  simp only [parent?, h, habove, Option.map_some]

theorem parent?_of_here (h : Words.split '/' p.text.toList = ['.'] :: body)
    (habove : above? body = some above) :
    p.parent? = some ⟨String.ofList (Words.join '/' (['.'] :: above))⟩ := by
  simp only [parent?, h, habove]

theorem parent?_of_name (h : Words.split '/' p.text.toList = w :: body) (hw : ¬isIdle w)
    (habove : above? (w :: body) = some above) :
    p.parent? = some ⟨String.ofList (Words.join '/' above)⟩ := by
  rw [parent?, h]
  split
  case h_1 heq =>
    cases heq
    exact absurd rfl hw
  case h_2 heq =>
    cases heq
    exact absurd rfl hw
  case h_3 => rw [habove, Option.map_some]

/-- The path is a part of a text. If it has no text there are no steps; else its steps are these,
but for idle ones at the end. -/
structure Leads (q : Path) (text : List Char) (steps : List (List Char)) : Prop where
  isPrefix : q.text.toList <+: text
  nil : q.text = "" → steps = []
  settle_eq : q.text ≠ "" → settle (Words.split '/' q.text.toList) = settle steps

theorem leads_root (hsep : ∀ w ∈ above, '/' ∉ w) :
    Leads ⟨String.ofList ('/' :: Words.join '/' (settle above))⟩
      (Words.join '/' ([] :: (above ++ [name]))) ([] :: above) where
  isPrefix := by
    rw [String.toList_ofList, Words.join_cons [] (by simp), List.nil_append, List.prefix_cons_inj]
    exact Words.join_isPrefix ((settle_isPrefix above).trans (List.prefix_append above [name]))
  nil h := by
    rw [← String.toList_inj, String.toList_ofList] at h
    cases h
  settle_eq _ := by
    rw [String.toList_ofList, Words.split, if_pos rfl, ← settle_cons_settle [] above]
    by_cases h : settle above = []
    · rw [h]
      rfl
    · rw [split_join_settle h hsep]

theorem leads_here (hsep : ∀ w ∈ above, '/' ∉ w) :
    Leads ⟨String.ofList (Words.join '/' (['.'] :: settle above))⟩
      (Words.join '/' (['.'] :: (above ++ [name]))) (['.'] :: above) where
  isPrefix := by
    rw [String.toList_ofList]
    apply Words.join_isPrefix
    rw [List.prefix_cons_inj]
    exact (settle_isPrefix above).trans (List.prefix_append above [name])
  nil h := by
    rw [← String.toList_inj, String.toList_ofList] at h
    exact absurd h (Words.join_cons_ne_nil (by decide))
  settle_eq _ := by
    rw [String.toList_ofList, Words.split_join (by simp), settle_cons_settle]
    intro w hw
    rcases List.mem_cons.1 hw with rfl | hw
    · decide
    · exact hsep w ((settle_isPrefix above).subset hw)

theorem leads_name (hw : ¬isIdle w) (hsep : ∀ v ∈ w :: above, '/' ∉ v) :
    Leads ⟨String.ofList (Words.join '/' (settle (w :: above)))⟩
      (Words.join '/' (w :: above ++ [name])) (w :: above) := by
  have hne : settle (w :: above) ≠ [] := by
    rw [settle_eq_rdropWhile]
    intro h
    exact hw (List.rdropWhile_eq_nil_iff.1 h w List.mem_cons_self)
  refine ⟨?_, ?_, ?_⟩
  · rw [String.toList_ofList]
    exact Words.join_isPrefix ((settle_isPrefix _).trans (List.prefix_append _ _))
  · intro h
    obtain ⟨rest, hrest⟩ : ∃ rest, settle (w :: above) = w :: rest := by
      rcases List.prefix_cons_iff.1 (settle_isPrefix (w :: above)) with h | ⟨rest, h, -⟩
      · exact absurd h hne
      · exact ⟨rest, h⟩
    have hwne : w ≠ [] := by
      rintro rfl
      exact hw rfl
    rw [← String.toList_inj, String.toList_ofList, hrest] at h
    exact absurd h (Words.join_cons_ne_nil hwne)
  · intro _
    rw [String.toList_ofList, split_join_settle hne hsep, settle_settle]

/-- **The path above a path** leads where its steps lead but for the last, which is a name. -/
theorem exists_parent? (hsplit : Words.split '/' p.text.toList = above ++ [name])
    (hname : ¬isIdle name) : ∃ q, p.parent? = some q ∧ Leads q p.text.toList above := by
  have hsep : ∀ w ∈ above, '/' ∉ w := by
    intro w hw
    have hmem : w ∈ Words.split '/' p.text.toList := by
      rw [hsplit]
      exact List.mem_append_left _ hw
    exact Words.not_mem_of_mem_split hmem
  have htext : p.text.toList = Words.join '/' (above ++ [name]) := by
    rw [← hsplit, Words.join_split]
  rw [htext]
  cases above with
  | nil =>
    refine ⟨⟨""⟩, ?_, List.nil_prefix, fun _ => rfl, fun h => absurd rfl h⟩
    have habove : above? ([] ++ [name]) = some [] := above?_snoc hname
    exact parent?_of_name hsplit hname habove
  | cons w above =>
    have hsep' : ∀ w ∈ above, '/' ∉ w := fun w hw => hsep w (List.mem_cons_of_mem _ hw)
    by_cases hroot : w = []
    · subst hroot
      exact ⟨_, parent?_of_root hsplit (above?_snoc hname), leads_root hsep'⟩
    by_cases hhere : w = ['.']
    · subst hhere
      exact ⟨_, parent?_of_here hsplit (above?_snoc hname), leads_here hsep'⟩
    have hw : ¬isIdle w := by simp [isIdle, hroot, hhere]
    have habove : above? (w :: above ++ [name]) = some (settle (w :: above)) := above?_snoc hname
    exact ⟨_, parent?_of_name hsplit hw habove, leads_name hw hsep⟩

end Path

/-! ## Directories that steps lead into -/

namespace FileTree

open SealedChat.Path (settle isIdle Leads)

variable {t : FileTree} {p q : Path} {here l : Location} {name : String}
  {ws vs : List (List Char)}

/-- A path that is a part of another in front is walked from the same location. -/
theorem start_of_isPrefix (h : q.text.toList <+: p.text.toList) (hq : q.text ≠ "")
    (hp : t.start p = .ok here) : t.start q = .ok here := by
  obtain ⟨hzero, -, hlong, rfl⟩ := start_eq_ok_iff.1 hp
  obtain ⟨rest, hrest⟩ := h
  have hsize : Utf8.size q.text ≤ Utf8.size p.text := by
    simp [Utf8.size, Utf8.encode, Utf8.encodeChars, ← hrest]
  have habsolute : q.isAbsolute = p.isAbsolute := by
    cases hcs : q.text.toList with
    | nil => exact absurd (String.toList_inj.1 hcs) hq
    | cons c cs => simp [Path.isAbsolute, ← hrest, hcs]
  refine start_eq_ok_iff.2 ⟨?_, hq, Nat.lt_of_le_of_lt hsize hlong, by rw [habsolute]⟩
  intro hmem
  exact hzero (hrest ▸ List.mem_append_left _ hmem)

/-- The steps lead into a directory. -/
def Enters (t : FileTree) (here : Location) (steps : List String) (l : Location) : Prop :=
  t.walk here steps = .ok l ∧ t.node? l = some .directory

theorem step_of_idle {w : List Char} (h : isIdle w) (here : Location) :
    step here (String.ofList w) = .ok here := by
  simp only [isIdle, Bool.or_eq_true, decide_eq_true_eq] at h
  rcases h with rfl | rfl
  · rfl
  · exact if_pos (.inr rfl)

theorem enters_append_of_idle {idles : List (List Char)} (h : ∀ w ∈ idles, isIdle w) :
    t.Enters here ((ws ++ idles).map String.ofList) l ↔ t.Enters here (ws.map String.ofList) l := by
  induction idles using List.reverseRecOn generalizing l with
  | nil => rw [List.append_nil]
  | append_singleton idles w ih =>
    have hw : isIdle w := h w (by simp)
    rw [← ih fun v hv => h v (List.mem_append_left _ hv), ← List.append_assoc, List.map_append,
      List.map_singleton, Enters, walk_snoc_iff]
    constructor
    · intro ⟨⟨above, hwalk, hd, hstep⟩, _⟩
      rw [step_of_idle hw] at hstep
      cases hstep
      exact ⟨hwalk, hd⟩
    · intro ⟨hwalk, hd⟩
      exact ⟨⟨l, hwalk, hd, step_of_idle hw l⟩, hd⟩

/-- Steps that are the same but for idle ones at the end lead into the same directory. -/
theorem enters_congr (h : settle ws = settle vs) :
    t.Enters here (ws.map String.ofList) l ↔ t.Enters here (vs.map String.ofList) l := by
  have hsettle : ∀ ws : List (List Char), t.Enters here (ws.map String.ofList) l ↔
      t.Enters here ((settle ws).map String.ofList) l := by
    intro ws
    obtain ⟨idles, heq, hidle⟩ := Path.exists_eq_settle_append ws
    conv_lhs => rw [heq]
    exact enters_append_of_idle hidle
  rw [hsettle ws, h, ← hsettle vs]

theorem isDirectory_iff_of_leads (hq : Leads q p.text.toList ws) (hne : q.text ≠ "")
    (hp : t.start p = .ok here) :
    t.isDirectory q ↔ ∃ l, t.Enters here (ws.map String.ofList) l := by
  have hstart : t.start q = .ok here := start_of_isPrefix hq.isPrefix hne hp
  rw [isDirectory_iff]
  apply exists_congr
  intro l
  rw [find_eq_ok_iff, ← enters_congr (hq.settle_eq hne)]
  constructor
  · intro ⟨here', hstart', hwalk, hd⟩
    rw [hstart] at hstart'
    cases hstart'
    exact ⟨hwalk, hd⟩
  · intro ⟨hwalk, hd⟩
    exact ⟨here, hstart, hwalk, hd⟩

/-! ## What bars a file -/

/-- What keeps a file from being opened at a path, or created there, other than that the directory
above it is missing. -/
inductive Bars (t : FileTree) (p : Path) : Prop
  /-- The text is no path. -/
  | text (h : '\x00' ∈ p.text.toList ∨ p.text = "" ∨ maxPath ≤ Utf8.size p.text)
  /-- Nothing behind the last slash is a name for a file, or it is too long. -/
  | name (last : String) (h : p.steps.getLast? = some last)
      (hlast : ¬IsName last ∨ maxName < Utf8.size last)
  /-- A directory is there. -/
  | directory (h : t.isDirectory p)
  /-- There is something above, but it is a file. -/
  | file (above : Path) (h : p.parent? = some above) (habove : t.isFile above)
  /-- The path is a name, and the current directory is none any more. -/
  | adrift (h : p.parent? = some ⟨""⟩) (hcurrent : t.node? t.current ≠ some .directory)

/-- A path of one step is not an absolute one. -/
theorem not_isAbsolute_of_split {w : List Char} (h : Words.split '/' p.text.toList = [w]) :
    ¬p.isAbsolute := by
  intro habsolute
  have htext : p.text.toList = w := by
    rw [← Words.join_split '/' p.text.toList, h]
    rfl
  have hw : '/' ∉ w := Words.not_mem_of_mem_split (h ▸ List.mem_singleton_self w)
  rw [Path.isAbsolute, decide_eq_true_eq, htext] at habsolute
  exact hw (List.mem_of_mem_head? habsolute)

theorem not_isIdle_of_isName {w : List Char} (h : IsName (String.ofList w)) : ¬isIdle w := by
  intro hw
  simp only [isIdle, Bool.or_eq_true, decide_eq_true_eq] at hw
  rcases hw with rfl | rfl
  · exact h.1 rfl
  · exact h.2.1 rfl

/-- The steps of a path are those above the last one, and the last one. -/
theorem exists_steps_eq (p : Path) : ∃ ws w, Words.split '/' p.text.toList = ws ++ [w] ∧
    p.steps = ws.map String.ofList ++ [String.ofList w] := by
  rcases List.eq_nil_or_concat (Words.split '/' p.text.toList) with h | ⟨ws, w, h⟩
  · exact absurd h (Words.split_ne_nil _ _)
  · rw [List.concat_eq_append] at h
    exact ⟨ws, w, h, by rw [Path.steps, Words.ofText, h, List.map_append, List.map_singleton]⟩

theorem not_bars_of_place (h : t.place p = .ok l) : ¬t.Bars p := by
  obtain ⟨start, steps, name, above, hstart, hsteps, hname, hwalk, hd, hstep, hl⟩ :=
    place_eq_ok_iff.1 h
  obtain ⟨ws, w, hsplit, hsteps'⟩ := exists_steps_eq p
  obtain ⟨rfl, rfl⟩ : ws.map String.ofList = steps ∧ String.ofList w = name :=
    List.append_singleton_inj.1 (hsteps'.symm.trans hsteps)
  obtain ⟨q, hparent, hq⟩ := Path.exists_parent? hsplit (not_isIdle_of_isName hname)
  intro hbars
  cases hbars with
  | text htext =>
    obtain ⟨hzero, hnil, hlong, -⟩ := start_eq_ok_iff.1 hstart
    rcases htext with htext | htext | htext
    · exact hzero htext
    · exact hnil htext
    · exact absurd hlong (Nat.not_lt.2 htext)
  | name last h hlast =>
    rw [hsteps, List.getLast?_concat, Option.some.injEq] at h
    subst h
    rcases hlast with h | h
    · exact h hname
    · exact absurd ((step_eq_ok_iff hname).1 hstep).1 (Nat.not_le.2 h)
  | directory h' => exact not_isDirectory_of_place h h'
  | file q' h hfile =>
    rw [hparent] at h
    cases h
    have hne : q.text ≠ "" := by
      intro hnil
      have hq' : q = ⟨""⟩ := congrArg Path.mk hnil
      exact not_isFile_nil (hq' ▸ hfile)
    exact not_isFile_of_isDirectory ((isDirectory_iff_of_leads hq hne hstart).2 ⟨above, hwalk, hd⟩)
      hfile
  | adrift h hcurrent =>
    rw [hparent] at h
    cases h
    obtain rfl : ws = [] := hq.nil rfl
    obtain ⟨-, -, -, hhere⟩ := start_eq_ok_iff.1 hstart
    rw [if_neg (not_isAbsolute_of_split hsplit)] at hhere
    cases hwalk
    exact hcurrent (hhere ▸ hd)

theorem start_of_not_bars (h : ¬t.Bars p) :
    t.start p = .ok (if p.isAbsolute then [] else t.current) := by
  apply start_eq_ok_iff.2
  refine ⟨?_, ?_, ?_, rfl⟩
  · intro hzero
    exact h (.text (.inl hzero))
  · intro hnil
    exact h (.text (.inr (.inl hnil)))
  · by_contra hlong
    exact h (.text (.inr (.inr (Nat.not_lt.1 hlong))))

theorem isName_of_not_bars (h : ¬t.Bars p) (hlast : p.steps.getLast? = some name) :
    IsName name ∧ Utf8.size name ≤ maxName := by
  constructor
  · by_contra hname
    exact h (.name name hlast (.inl hname))
  · by_contra hlong
    exact h (.name name hlast (.inr (Nat.not_le.1 hlong)))

/-- What is above is a directory, whether it is named or not. -/
theorem exists_enters_of_not_bars (h : ¬t.Bars p)
    (habove : ∀ q, p.parent? = some q → q.text ≠ "" → t.isThere q) {w : List Char}
    (hsplit : Words.split '/' p.text.toList = ws ++ [w]) (hw : ¬isIdle w) :
    ∃ above, t.Enters (if p.isAbsolute then [] else t.current) (ws.map String.ofList) above := by
  obtain ⟨q, hparent, hq⟩ := Path.exists_parent? hsplit hw
  by_cases hne : q.text = ""
  · obtain rfl : ws = [] := hq.nil hne
    rw [if_neg (not_isAbsolute_of_split hsplit)]
    refine ⟨t.current, rfl, ?_⟩
    by_contra hcurrent
    have hq' : q = ⟨""⟩ := congrArg Path.mk hne
    exact h (.adrift (hq' ▸ hparent) hcurrent)
  · rcases isThere_iff.1 (habove q hparent hne) with hfile | hdirectory
    · exact absurd (.file q hparent hfile) h
    · exact (isDirectory_iff_of_leads hq hne (start_of_not_bars h)).1 hdirectory

/-- **A file has a place just when nothing bars it**, if there is something at the path above. -/
theorem exists_place_iff (habove : ∀ q, p.parent? = some q → q.text ≠ "" → t.isThere q) :
    (∃ l, t.place p = .ok l) ↔ ¬t.Bars p := by
  constructor
  · intro ⟨l, h⟩
    exact not_bars_of_place h
  · intro hfree
    obtain ⟨ws, w, hsplit, hsteps⟩ := exists_steps_eq p
    have hstart := start_of_not_bars hfree
    obtain ⟨hname, hsize⟩ := isName_of_not_bars hfree (hsteps ▸ List.getLast?_concat)
    obtain ⟨above, hwalk, hd⟩ :=
      exists_enters_of_not_bars hfree habove hsplit (not_isIdle_of_isName hname)
    have hstep : step above (String.ofList w) = .ok (above ++ [String.ofList w]) :=
      (step_eq_ok_iff hname).2 ⟨hsize, rfl⟩
    refine ⟨_, place_eq_ok_iff.2 ⟨_, _, _, above, hstart, hsteps, hname, hwalk, hd, hstep, ?_⟩⟩
    intro hthere
    have hwalk' : t.walk (if p.isAbsolute then [] else t.current) p.steps =
        .ok (above ++ [String.ofList w]) := by
      rw [hsteps]
      exact walk_snoc_iff.2 ⟨above, hwalk, hd, hstep⟩
    exact hfree (.directory
      (isDirectory_iff.2 ⟨_, find_eq_ok_iff.2 ⟨_, hstart, hwalk', hthere⟩⟩))

end FileTree

end SealedChat
