import SealedChat.Error
import SealedChat.Files.Tree
import SealedChat.Proofs.Entries
import SealedChat.Proofs.Text.Utf8

/-!
# A file that has been written can be read

A tree with another file in it has the same directories, and all the nodes on the way to a place for
a file are directories (`place_eq_ok_iff`), so the way to it is the same as before (`place_put`): what
is written at a path is what is read there (`read_of_write`), and a file that is touched is there,
with what it held before or with nothing in it (`touch_of_place`).
-/

namespace SealedChat.FileTree

variable {t t' : FileTree} {l here there : Location} {n : Node} {p : Path} {name : String}
  {steps : List String} {content : Bytes}

/-! ## Nodes -/

theorem node?_put (hl : l ≠ []) (t : FileTree) (n : Node) (other : Location) :
    (t.put l n).node? other = if other = l then some n else t.node? other := by
  cases other with
  | nil => simp [node?, Ne.symm hl]
  | cons name above =>
    simp only [node?, put, Entries.lookup_cons, Entries.lookup_filter_ne]
    split <;> simp_all

/-- Another node that is not in place of a directory leaves the directories there. -/
theorem node?_put_of_directory (hl : t.node? l ≠ some .directory) (n : Node)
    (h : t.node? here = some .directory) : (t.put l n).node? here = some .directory := by
  have hne : l ≠ [] := by
    rintro rfl
    exact hl rfl
  rw [node?_put hne, if_neg, h]
  rintro rfl
  exact hl h

/-! ## Ways -/

theorem walk_cons_iff : t.walk here (name :: steps) = .ok there ↔
    t.node? here = some .directory ∧
      ∃ next, step here name = .ok next ∧ t.walk next steps = .ok there := by
  rw [walk]
  cases hn : t.node? here with
  | none => simp
  | some n =>
    cases n with
    | file content => simp
    | directory => simp only [Outcome.bind_eq_ok_iff, true_and]

theorem walk_snoc_iff : t.walk here (steps ++ [name]) = .ok there ↔
    ∃ above, t.walk here steps = .ok above ∧ t.node? above = some .directory ∧
      step above name = .ok there := by
  induction steps generalizing here with
  | nil =>
    simp only [List.nil_append, walk_cons_iff]
    simp [walk]
  | cons first steps ih =>
    simp only [List.cons_append, walk_cons_iff, ih]
    constructor
    · rintro ⟨hd, next, hstep, above, hwalk, hlast⟩
      exact ⟨above, ⟨hd, next, hstep, hwalk⟩, hlast⟩
    · rintro ⟨above, ⟨hd, next, hstep, hwalk⟩, hlast⟩
      exact ⟨hd, next, hstep, above, hwalk, hlast⟩

/-- The way to a node leads through directories, so it does not change where a file does. -/
theorem walk_put (hl : t.node? l ≠ some .directory) (n : Node)
    (h : t.walk here steps = .ok there) : (t.put l n).walk here steps = .ok there := by
  induction steps generalizing here with
  | nil => exact h
  | cons name steps ih =>
    obtain ⟨hd, next, hstep, hwalk⟩ := walk_cons_iff.1 h
    exact walk_cons_iff.2 ⟨node?_put_of_directory hl n hd, next, hstep, ih hwalk⟩

/-! ## Finding -/

theorem start_eq_ok_iff : t.start p = .ok here ↔
    '\x00' ∉ p.text.toList ∧ p.text ≠ "" ∧ Utf8.size p.text < maxPath ∧
      here = if p.isAbsolute then [] else t.current := by
  rw [start]
  by_cases hzero : '\x00' ∈ p.text.toList
  · simp [hzero]
  by_cases hnil : p.text = ""
  · simp [hnil]
  by_cases hlong : maxPath ≤ Utf8.size p.text
  · simp [hzero, hnil, hlong, Nat.not_lt.2 hlong]
  · simp only [hzero, hnil, hlong, List.any_beq', List.contains_iff_mem, if_false, Except.ok.injEq,
      not_false_eq_true, ne_eq, true_and, Nat.lt_of_not_le hlong]
    exact eq_comm

theorem find_eq_ok_iff : t.find p = .ok (l, n) ↔ ∃ start,
    t.start p = .ok start ∧ t.walk start p.steps = .ok l ∧ t.node? l = some n := by
  rw [find]
  constructor
  · intro h
    obtain ⟨start, hstart, h⟩ := Outcome.bind_eq_ok_iff.1 h
    obtain ⟨there, hwalk, h⟩ := Outcome.bind_eq_ok_iff.1 h
    cases hn : t.node? there with
    | none =>
      rw [hn] at h
      cases h
    | some n' =>
      rw [hn] at h
      cases h
      exact ⟨start, hstart, hwalk, hn⟩
  · intro ⟨start, hstart, hwalk, hn⟩
    simp only [hstart, hwalk, hn, bind, Except.bind]
    rfl

theorem isDirectory_iff : t.isDirectory p ↔ ∃ l, t.find p = .ok (l, .directory) := by
  rw [isDirectory]
  split
  case h_1 l heq => simp [heq]
  case h_2 h => simpa using h

theorem isFile_iff : t.isFile p ↔ ∃ l content, t.find p = .ok (l, .file content) := by
  rw [isFile]
  split
  case h_1 l content heq => simp [heq]
  case h_2 h => simpa using h

theorem isThere_iff : t.isThere p ↔ t.isFile p ∨ t.isDirectory p := by
  rw [isFile_iff, isDirectory_iff, isThere]
  cases t.find p with
  | error e => simp [Except.isOk, Except.toBool]
  | ok found =>
    obtain ⟨l, _ | _⟩ := found
    · simp [Except.isOk, Except.toBool]
    · simp [Except.isOk, Except.toBool]

theorem not_isFile_of_isDirectory (h : t.isDirectory p) : ¬t.isFile p := by
  intro hfile
  obtain ⟨l, hl⟩ := isDirectory_iff.1 h
  obtain ⟨l', content, hl'⟩ := isFile_iff.1 hfile
  rw [hl] at hl'
  cases hl'

theorem not_isFile_nil : ¬t.isFile ⟨""⟩ := by
  intro h
  obtain ⟨l, content, hl⟩ := isFile_iff.1 h
  obtain ⟨start, hstart, -⟩ := find_eq_ok_iff.1 hl
  exact (start_eq_ok_iff.1 hstart).2.1 rfl

/-! ## Places for files -/

/-- Steps without a slash behind them come apart into those above a name, and the name. -/
theorem steps_of_aim (h : aim p = some (steps, name, false)) : p.steps = steps ++ [name] := by
  simp only [aim, Option.map_eq_some_iff, Prod.mk.injEq, decide_eq_false_iff_not, Nat.not_lt,
    List.length_reverse] at h
  obtain ⟨last, hlast, rfl, rfl, hlength⟩ := h
  have hall : p.steps.reverse.dropWhile (· = "") = p.steps.reverse :=
    (List.dropWhile_suffix _).eq_of_length_le (by simpa using hlength)
  rw [hall, List.reverse_reverse] at hlast ⊢
  exact (List.dropLast_append_getLast? last hlast).symm

/-- A name that a file can have. -/
def IsName (name : String) : Prop := name ≠ "" ∧ name ≠ "." ∧ name ≠ ".."

theorem step_eq_ok_iff (h : IsName name) :
    step here name = .ok l ↔ Utf8.size name ≤ maxName ∧ l = here ++ [name] := by
  rw [step, if_neg (by simp [h.1, h.2.1]), if_neg h.2.2]
  by_cases hlong : maxName < Utf8.size name
  · simp [hlong, Nat.not_le.2 hlong]
  · rw [if_neg hlong, Except.ok.injEq, eq_comm]
    exact (and_iff_right (Nat.not_lt.1 hlong)).symm

theorem aim_of_steps (h : p.steps = steps ++ [name]) (hname : name ≠ "") :
    aim p = some (steps, name, false) := by
  simp [aim, h, hname]

/-- **The place for a file is an entry of a directory**, and not a directory itself. -/
theorem place_eq_ok_iff : t.place p = .ok l ↔ ∃ start steps name above,
    t.start p = .ok start ∧ p.steps = steps ++ [name] ∧ IsName name ∧
      t.walk start steps = .ok above ∧ t.node? above = some .directory ∧
        step above name = .ok l ∧ t.node? l ≠ some .directory := by
  constructor
  · intro h
    rw [place] at h
    obtain ⟨start, hstart, h⟩ := Outcome.bind_eq_ok_iff.1 h
    split at h
    case h_1 => cases h
    case h_2 steps name slash haim =>
      obtain ⟨above, hwalk, h⟩ := Outcome.bind_eq_ok_iff.1 h
      obtain ⟨above, hwalk, hd, hlast⟩ := walk_snoc_iff.1 hwalk
      cases hlast
      split at h
      case isTrue => cases h
      case isFalse hplain =>
        obtain ⟨next, hstep, h⟩ := Outcome.bind_eq_ok_iff.1 h
        obtain ⟨rfl, hl⟩ : next = l ∧ t.node? next ≠ some .directory := by
          split at h
          case h_1 => cases h
          case h_2 hnode =>
            cases h
            exact ⟨rfl, hnode⟩
        cases slash with
        | true => exact absurd (.inl rfl) hplain
        | false =>
          have hname : IsName name := by
            rw [not_or, not_or] at hplain
            refine ⟨?_, hplain.2.1, hplain.2.2⟩
            intro hnil
            subst hnil
            cases hstep
            exact hl hd
          have hsteps := steps_of_aim haim
          exact ⟨start, steps, name, above, hstart, hsteps, hname, hwalk, hd, hstep, hl⟩
  · intro ⟨start, steps, name, above, hstart, hsteps, ⟨hnil, hdot, hdots⟩, hwalk, hd, hstep, hl⟩
    have hwalk' : t.walk start (steps ++ [""]) = .ok above :=
      walk_snoc_iff.2 ⟨above, hwalk, hd, rfl⟩
    simp only [place, hstart, aim_of_steps hsteps hnil, hwalk', bind, Except.bind, hdot, hdots,
      Bool.false_eq_true, or_self, if_false, hstep]
    rfl

/-- What is found at a path is what is at the place for a file there. -/
theorem find_eq_ok_iff_of_place (h : t.place p = .ok l) :
    t.find p = .ok (there, n) ↔ there = l ∧ t.node? l = some n := by
  obtain ⟨start, steps, name, above, hstart, hsteps, -, hwalk, hd, hstep, -⟩ := place_eq_ok_iff.1 h
  have hwalk' : t.walk start p.steps = .ok l := by
    rw [hsteps]
    exact walk_snoc_iff.2 ⟨above, hwalk, hd, hstep⟩
  rw [find_eq_ok_iff]
  constructor
  · intro ⟨start', hstart', hwalk'', hn⟩
    rw [hstart] at hstart'
    cases hstart'
    rw [hwalk'] at hwalk''
    cases hwalk''
    exact ⟨rfl, hn⟩
  · intro ⟨hthere, hn⟩
    exact ⟨start, hstart, hthere ▸ hwalk', hthere ▸ hn⟩

theorem node?_ne_of_place (h : t.place p = .ok l) : t.node? l ≠ some .directory := by
  obtain ⟨_, _, _, _, _, _, _, _, _, _, hl⟩ := place_eq_ok_iff.1 h
  exact hl

/-- A file has no place where a directory is. -/
theorem not_isDirectory_of_place (h : t.place p = .ok l) : ¬t.isDirectory p := by
  intro hdirectory
  obtain ⟨there, hfind⟩ := isDirectory_iff.1 hdirectory
  exact node?_ne_of_place h ((find_eq_ok_iff_of_place h).1 hfind).2

theorem isFile_iff_of_place (h : t.place p = .ok l) : t.isFile p ↔ (t.node? l).isSome := by
  rw [isFile_iff]
  constructor
  · intro ⟨there, content, hfind⟩
    rw [((find_eq_ok_iff_of_place h).1 hfind).2, Option.isSome_some]
  · intro hsome
    obtain ⟨n, hn⟩ := Option.isSome_iff_exists.1 hsome
    cases n with
    | directory => exact absurd hn (node?_ne_of_place h)
    | file content => exact ⟨l, content, (find_eq_ok_iff_of_place h).2 ⟨rfl, hn⟩⟩

/-- The place for a file stays where it is when the file is put there. -/
theorem place_put (h : t.place p = .ok l) (content : Bytes) :
    (t.put l (.file content)).place p = .ok l := by
  obtain ⟨start, steps, name, above, hstart, hsteps, hname, hwalk, hd, hstep, hl⟩ :=
    place_eq_ok_iff.1 h
  refine place_eq_ok_iff.2 ⟨start, steps, name, above, hstart, hsteps, hname, walk_put hl _ hwalk,
    node?_put_of_directory hl _ hd, hstep, ?_⟩
  have hne : l ≠ [] := by
    rintro rfl
    exact hl rfl
  rw [node?_put hne, if_pos rfl]
  simp

/-- **What is written is read.** -/
theorem read_of_write (h : t.write p content = .ok t') : t'.read p = .ok content := by
  obtain ⟨l, hplace, rfl⟩ : ∃ l, t.place p = .ok l ∧ t.put l (.file content) = t' :=
    Outcome.map_eq_ok_iff.1 h
  have hne : l ≠ [] := by
    rintro rfl
    exact node?_ne_of_place hplace rfl
  have hnode := node?_put hne t (.file content) l
  rw [if_pos rfl] at hnode
  have hfind : (t.put l (.file content)).find p = .ok (l, .file content) :=
    (find_eq_ok_iff_of_place (place_put hplace content)).2 ⟨rfl, hnode⟩
  simp only [read, bind, Except.bind, hfind]
  rfl

theorem readText_of_write {text : String} (h : t.write p (Utf8.encode text) = .ok t') :
    t'.readText p = .ok text := by
  rw [readText, read_of_write h]
  simp only [bind, Except.bind, Utf8.decode?_encode]
  rfl

/-- A file that has been written can be written again. -/
theorem exists_write_of_write (h : t.write p content = .ok t') (content' : Bytes) :
    ∃ t'', t'.write p content' = .ok t'' := by
  obtain ⟨l, hplace, rfl⟩ : ∃ l, t.place p = .ok l ∧ t.put l (.file content) = t' :=
    Outcome.map_eq_ok_iff.1 h
  rw [write, place_put hplace]
  exact ⟨_, rfl⟩

/-- **A file that is there is left as it is**, and one that is not is made, with nothing in it. -/
theorem touch_of_place (h : t.place p = .ok l) : ∃ t', t.touch p = .ok t' ∧
    (t.isFile p → t' = t) ∧ (¬t.isFile p → t'.read p = .ok []) := by
  have htouch : t.touch p = .ok (if (t.node? l).isSome then t else t.put l (.file [])) := by
    rw [touch, h]
    rfl
  refine ⟨_, htouch, ?_, ?_⟩
  · intro hfile
    exact if_pos ((isFile_iff_of_place h).1 hfile)
  · intro hfile
    rw [if_neg fun hsome => hfile ((isFile_iff_of_place h).2 hsome)]
    have hwrite : t.write p [] = .ok (t.put l (.file [])) := by
      rw [write, h]
      rfl
    exact read_of_write hwrite

end SealedChat.FileTree
