import SealedChat.Logging
import SealedChat.Proofs.Files.Above

/-!
# Settings without findings and the log file

The settings of a log are looked over before its writer is made, but of the log file only the
directory above it is asked for, and only whether there is something. So settings may have no
finding, and their log file cannot be opened all the same: just if something else bars it, of what
`FileTree.Bars` lists (`makeWriter_of_validate`).
-/

namespace SealedChat

namespace LogSettings

variable {l : LogSettings} {t : FileTree} {p : Path}

/-- The path of the log file, if one is wanted. -/
def wanted? (l : LogSettings) : Option Path := if l.toFile then l.filePath.map Path.mk else none

theorem wanted?_eq_some_iff : l.wanted? = some p ↔ l.toFile ∧ l.filePath = some p.text := by
  rw [wanted?]
  cases l.toFile with
  | false => simp
  | true =>
    rw [if_pos rfl, Option.map_eq_some_iff]
    constructor
    · intro ⟨text, htext, hp⟩
      exact ⟨rfl, htext.trans (congrArg (some ∘ Path.text) hp)⟩
    · intro ⟨_, htext⟩
      exact ⟨p.text, htext, rfl⟩

/-- **What the lack of findings tells.** -/
theorem of_validate (h : l.validate t = []) :
    (l.toConsole ∨ l.toFile) ∧ (l.toFile → ∃ p, l.wanted? = some p ∧
      ∀ q, p.parent? = some q → q.text ≠ "" → t.isThere q) := by
  rw [validate, List.append_eq_nil_iff, List.append_eq_nil_iff] at h
  obtain ⟨⟨-, hfile⟩, houtput⟩ := h
  constructor
  · by_contra hno
    rw [not_or] at hno
    simp [finding, hno.1, hno.2] at houtput
  · intro hto
    rw [if_pos hto] at hfile
    cases hpath : l.filePath with
    | none => simp [hpath] at hfile
    | some text =>
      refine ⟨⟨text⟩, wanted?_eq_some_iff.2 ⟨hto, hpath⟩, ?_⟩
      intro q hq hne
      rw [hpath] at hfile
      by_contra hmissing
      simp [checkDirectory, finding, hq, hne, hmissing] at hfile

theorem openFile_of_wanted (hp : l.wanted? = some p) {e : FileError} (h : t.place p = .error e) :
    l.openFile t = .error (.config s!"Failed to open log file '{p.text}': {e.message}") := by
  obtain ⟨hto, hpath⟩ := wanted?_eq_some_iff.1 hp
  simp only [openFile, hto, hpath, h, bind, Except.bind, if_true]

theorem openFile_of_not_wanted (h : ¬l.toFile) : l.openFile t = .ok (none, t) := by
  rw [openFile, if_neg h]

/-- The writer goes where the settings say. -/
structure Suits (l : LogSettings) (t : FileTree) (w : LogWriter) (t' : FileTree) : Prop where
  console : w.console = l.toConsole
  file : w.file.isSome ↔ l.toFile
  /-- Without a log file nothing happens to the files. -/
  unchanged : ¬l.toFile → t' = t
  /-- A log file that is there is kept, to be added to. -/
  kept : ∀ p, l.wanted? = some p → t.isFile p → t' = t
  /-- A log file that is not there is made. -/
  made : ∀ p, l.wanted? = some p → ¬t.isFile p → t'.read p = .ok []

theorem exists_writer_of_place {place : Location} (hp : l.wanted? = some p)
    (h : t.place p = .ok place) : ∃ w t', l.makeWriter t = (.ok w, t') ∧ l.Suits t w t' := by
  obtain ⟨hto, hpath⟩ := wanted?_eq_some_iff.1 hp
  obtain ⟨t', htouch, hkept, hmade⟩ := FileTree.touch_of_place h
  have hopen : l.openFile t = .ok (some place, t') := by
    simp only [openFile, hto, hpath, h, htouch, bind, Except.bind, if_true]
    rfl
  have honly : ∀ q, l.wanted? = some q → q = p := fun q hq => Option.some.inj (hq.symm.trans hp)
  refine ⟨⟨l.toConsole, some place⟩, t', ?_, rfl, by simp [hto], ?_, ?_, ?_⟩
  · simp [makeWriter, hopen]
  · intro hno
    exact absurd hto hno
  · intro q hq
    rw [honly q hq]
    exact hkept
  · intro q hq
    rw [honly q hq]
    exact hmade

theorem exists_writer_of_console (hto : ¬l.toFile) (hconsole : l.toConsole) :
    ∃ w t', l.makeWriter t = (.ok w, t') ∧ l.Suits t w t' := by
  have hnone : ∀ p, l.wanted? ≠ some p := fun p hp => hto (wanted?_eq_some_iff.1 hp).1
  refine ⟨⟨l.toConsole, none⟩, t, ?_, rfl, by simp [hto], fun _ => rfl, ?_, ?_⟩
  · simp [makeWriter, openFile_of_not_wanted hto, hconsole]
  · intro p hp
    exact absurd hp (hnone p)
  · intro p hp
    exact absurd hp (hnone p)

/-- **Settings without findings have a writer, unless something bars their log file**, other than
that there is nothing at the path above it. If something does, there is no writer, and the files stay
as they are. -/
theorem makeWriter_of_validate (l : LogSettings) (t : FileTree) (h : l.validate t = []) :
    ((∀ p, l.wanted? = some p → ¬t.Bars p) →
      ∃ w t', l.makeWriter t = (.ok w, t') ∧ l.Suits t w t') ∧
    ∀ p, l.wanted? = some p → t.Bars p → ∃ e : FileError, l.makeWriter t =
      (.error (.config s!"Failed to open log file '{p.text}': {e.message}"), t) := by
  obtain ⟨houtput, hfile⟩ := of_validate h
  constructor
  · intro hfree
    by_cases hto : l.toFile
    · obtain ⟨p, hp, habove⟩ := hfile hto
      obtain ⟨place, hplace⟩ := (FileTree.exists_place_iff habove).2 (hfree p hp)
      exact exists_writer_of_place hp hplace
    · exact exists_writer_of_console hto (houtput.resolve_right hto)
  · intro p hp hbars
    cases hplace : t.place p with
    | ok place => exact absurd hbars (FileTree.not_bars_of_place hplace)
    | error e =>
      refine ⟨e, ?_⟩
      rw [makeWriter, openFile_of_wanted hp hplace]

/-- A log file in a directory that is there. -/
theorem makeWriter_of_validate_chatLog :
    let l : LogSettings := { toFile := true, filePath := some "chat.log" }
    let t := FileTree.bare ["work"]
    ∃ w t', l.makeWriter t = (.ok w, t') ∧ l.Suits t w t' := by
  intro l t
  apply (makeWriter_of_validate l t (by decide +kernel)).1
  intro p hp
  cases hp
  have hplace : t.place ⟨"chat.log"⟩ = .ok ["work", "chat.log"] := by decide +kernel
  exact FileTree.not_bars_of_place hplace

/-- A file in place of the directory, and a directory in place of the file, give no finding. -/
theorem validate_overlooks :
    let t := ((FileTree.bare ["work"]).put ["work", "notes.txt"] (.file [120])).put
      ["work", "logs"] .directory
    let below : LogSettings := { toFile := true, filePath := some "notes.txt/chat.log" }
    let instead : LogSettings := { toFile := true, filePath := some "logs" }
    below.validate t = [] ∧ (below.makeWriter t).1 = .error (.config
      "Failed to open log file 'notes.txt/chat.log': Not a directory (os error 20)") ∧
    instead.validate t = [] ∧ (instead.makeWriter t).1 = .error (.config
      "Failed to open log file 'logs': Is a directory (os error 21)") := by
  decide +kernel

end LogSettings

end SealedChat
