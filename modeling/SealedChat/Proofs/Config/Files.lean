import SealedChat.Config.Files
import SealedChat.Proofs.Config.Sections
import SealedChat.Proofs.Files.Tree
import SealedChat.Proofs.Text.Utf8

/-!
# Settings survive in files

Settings that are saved to a file are loaded from there as they were, but for durations that are not
whole milliseconds, or are too long: of the milliseconds of a duration the lowest 64 bits are written
(`load_saved`). Whether settings can be saved at all is asked of these bits too. So a duration of 2⁶³
milliseconds is refused, while a longer one may be saved, and comes back as a short one.
-/

namespace SealedChat.Settings

variable {s : Settings} {t t' : FileTree} {p : Path}

/-- Saving, with the tree that is there afterwards. -/
def saving (s : Settings) (p : Path) (t : FileTree) : Outcome Unit × FileTree :=
  match s.save t p with
  | .ok t' => (.ok (), t')
  | .error e => (.error e, t)

theorem saving_eq_ok_iff : s.saving p t = (.ok (), t') ↔ s.save t p = .ok t' := by
  rw [saving]
  cases s.save t p <;> simp

/-! ## What cannot be saved -/

theorem isSome_toToml_iff : s.toToml.isSome ↔ s.IsExpressible := by
  rw [toToml, Option.isSome_map, Option.isSome_iff_exists, ← fits_iff]
  simp only [toSections_eq_some_iff]
  exact ⟨fun ⟨_, _, h⟩ => h, fun h => ⟨_, rfl, h⟩⟩

/-- A file that cannot be written is another error. -/
theorem unwritable_ne (e : FileError) :
    ChatError.config s!"Failed to write config file: {e.message}" ≠
      .config "Failed to serialize config" := by
  cases e <;> decide

theorem saving_eq_refused_iff :
    s.saving p t = (.error (.config "Failed to serialize config"), t) ↔ ¬s.IsExpressible := by
  rw [← isSome_toToml_iff, saving, save]
  cases s.toToml with
  | none => simp
  | some text =>
    cases hwrite : t.write p (Utf8.encode text) with
    | ok t' => simp [hwrite]
    | error e =>
      simp only [hwrite, Prod.mk.injEq, Except.error.injEq, and_true, Option.isSome_some,
        not_true_eq_false, iff_false]
      exact unwritable_ne e

/-! ## What is saved -/

/-- What has been saved is loaded. -/
theorem load_of_save (h : s.save t p = .ok t') : load t' p = .ok s.kept := by
  rw [save] at h
  split at h
  case h_1 => cases h
  case h_2 text htext =>
    split at h
    case h_2 => cases h
    case h_1 _ hwrite =>
      cases h
      rw [load, FileTree.readText_of_write hwrite]
      simp only [ofToml_toToml htext]
      rfl

/-- **What becomes of settings that are saved.** Settings that cannot be written in TOML are refused,
whatever is in the place for them, and nothing changes. Others are loaded, once they are saved, from
the same place, with everything as it was but the durations. These are as they were if each is of
whole milliseconds, and of fewer than 2⁶⁴; otherwise something has been lost. -/
theorem load_saved (s : Settings) (t : FileTree) (p : Path) :
    (s.saving p t = (.error (.config "Failed to serialize config"), t) ↔ ¬s.IsExpressible) ∧
    ∀ t', s.saving p t = (.ok (), t') →
      load t' p = .ok s.kept ∧
      (load t' p = .ok s ↔ ∀ d ∈ s.durations, d.IsWhole ∧ d.millis < Nat.pow 2 64) := by
  refine ⟨saving_eq_refused_iff, fun t' h => ?_⟩
  have hload := load_of_save (saving_eq_ok_iff.1 h)
  refine ⟨hload, ?_⟩
  rw [hload, Except.ok.injEq, kept_eq_iff]
  simp only [Duration.kept_eq_iff]

/-- There is nothing in the way of a new file. -/
theorem exists_saving (h : s.IsExpressible) :
    ∃ t', s.saving ⟨"config.toml"⟩ (.bare ["work"]) = (.ok (), t') := by
  obtain ⟨text, htext⟩ := Option.isSome_iff_exists.1 (isSome_toToml_iff.2 h)
  have hplace : (FileTree.bare ["work"]).place ⟨"config.toml"⟩ = .ok ["work", "config.toml"] := by
    decide
  have hsave : s.save (.bare ["work"]) ⟨"config.toml"⟩ =
      .ok ((FileTree.bare ["work"]).put ["work", "config.toml"] (.file (Utf8.encode text))) := by
    simp only [save, htext, FileTree.write, hplace]
    rfl
  exact ⟨_, saving_eq_ok_iff.2 hsave⟩

/-- The defaults are as they were. -/
theorem load_saved_defaults : ∃ t',
    saving {} ⟨"config.toml"⟩ (.bare ["work"]) = (.ok (), t') ∧ load t' ⟨"config.toml"⟩ = .ok {} := by
  have hfits : IsExpressible {} := by
    simp only [IsExpressible, counts, durations, List.forall_mem_cons, List.not_mem_nil,
      false_implies, implies_true, and_true]
    decide
  obtain ⟨t', h⟩ := exists_saving hfits
  exact ⟨t', h, ((load_saved {} _ _).2 t' h).2.2 (by decide)⟩

/-- A handshake may take 18446744073709552 seconds, which are 2⁶⁴ + 384 milliseconds; after the
settings have been saved and loaded, it may take 384 milliseconds. -/
theorem load_saved_shorter : ∃ (s : Settings) (t' : FileTree),
    s = { server := { handshakeTimeout := .ofSeconds 18446744073709552 } } ∧
    (∀ d ∈ s.durations, d.IsWhole) ∧
    s.saving ⟨"config.toml"⟩ (.bare ["work"]) = (.ok (), t') ∧
    load t' ⟨"config.toml"⟩ = .ok { server := { handshakeTimeout := .ofMillis 384 } } ∧
    load t' ⟨"config.toml"⟩ ≠ .ok s := by
  let s : Settings := { server := { handshakeTimeout := .ofSeconds 18446744073709552 } }
  have hfits : s.IsExpressible := by
    simp only [IsExpressible, counts, durations, List.forall_mem_cons, List.not_mem_nil,
      false_implies, implies_true, and_true, s]
    decide
  obtain ⟨t', h⟩ := exists_saving hfits
  have hload := load_of_save (saving_eq_ok_iff.1 h)
  have hkept : s.kept = { server := { handshakeTimeout := .ofMillis 384 } } := by decide
  refine ⟨s, t', rfl, by decide, h, hkept ▸ hload, ?_⟩
  rw [hload, ne_eq, Except.ok.injEq]
  decide

end SealedChat.Settings
