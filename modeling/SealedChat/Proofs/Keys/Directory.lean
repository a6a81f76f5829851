import Mathlib.Data.List.Basic
import Mathlib.Data.List.Nodup
import SealedChat.Keys.Directory
import SealedChat.Proofs.Entries
import SealedChat.Proofs.History
import SealedChat.Proofs.Keys.Texts

/-!
# A key directory is a faithful snapshot

What a lookup finds is settled by the last time that the directory was read (`Snapshot`): the key of a
principal is what one file says, the one named after the principal (`Snapshot.Resolves`), and no other
file has a part in it.

A directory is read file by file. Each file answers for one name (`KeyDirectory.lookup_collect`), so
by induction the ring that is collected holds for each name what its file says
(`Snapshot.lookup_scan`). Between one reading and the next the files may change in any way, and
the directory is opened, read again and asked in any order. What these turns leave of it is a
`History`, and the invariant is that the ring is still what the last successful reading collected
(`Stands`).

Main result: `KeyDirectory.lookups_from_last_reading`.
-/

namespace SealedChat

/-! ## Key files -/

namespace PublicKey

variable {key : PublicKey}

theorem load_eq_ok_iff {t : FileTree} {p : Path} : load t p = .ok key ↔
    ∃ text, t.readText p = .ok text ∧ String.ofList (Blank.trim text.toList) = key.toBase64 := by
  rw [load, bind_keyText_eq_ok_iff]
  simp only [ofBase64_eq_ok_iff, Blank.trimmed]

end PublicKey

/-! ## Key rings -/

namespace KeyRing

/-- No name has two keys. -/
def Keyed (r : KeyRing) : Prop := (r.entries.map Prod.fst).Nodup

theorem lookup_put (r : KeyRing) (name : String) (key : PublicKey) (other : String) :
    (r.put name key).entries.lookup other =
      if other = name then some key else r.entries.lookup other := by
  rw [put, Entries.lookup_cons, Entries.lookup_filter_ne]
  split_ifs <;> rfl

theorem Keyed.put {r : KeyRing} (h : r.Keyed) (name : String) (key : PublicKey) :
    (r.put name key).Keyed := by
  rw [Keyed, KeyRing.put, List.map_cons, List.nodup_cons]
  refine ⟨?_, h.sublist (List.filter_sublist.map Prod.fst)⟩
  intro hm
  obtain ⟨entry, he, hname⟩ := List.mem_map.1 hm
  simp [hname] at he

end KeyRing

/-! ## One reading -/

namespace KeyDirectory

variable {t : FileTree} {p : Path} {name file : String} {key : PublicKey} {ring : KeyRing}

/-- A file is named after a principal if the extension follows a name that is not empty. -/
theorem owner?_eq_some_iff : owner? file = some name ↔ name ≠ "" ∧ file = name ++ ".pub" := by
  have hfile : Words.after? extension.reverse file.toList.reverse = some name.toList.reverse ↔
      file = name ++ ".pub" := by
    rw [Words.after?_eq_some_iff, ← List.reverse_append, List.reverse_inj, ← String.toList_inj,
      String.toList_append, extension]
  rw [← hfile, owner?]
  split
  next h => simp [h]
  next h =>
    rw [h, Option.some.injEq]
    simp
  next stem hne h =>
    rw [h, Option.some.injEq, Option.some.injEq, ← List.reverse_eq_iff, ← String.toList_inj,
      String.toList_ofList]
    constructor
    · intro heq
      refine ⟨?_, heq⟩
      intro hempty
      subst hempty
      simp at heq
      exact hne heq
    · intro ⟨_, heq⟩
      exact heq

/-- The key in the file that is named after a principal, if the file can be used. -/
def usable? (t : FileTree) (p : Path) (name : String) : Option PublicKey :=
  if Principal.IsValid name then (PublicKey.load t (p.entry (name ++ ".pub"))).toOption else none

/-- **A file answers for one name only**, the one that it is named after, and only if it can be
used. -/
theorem lookup_collect (t : FileTree) (p : Path) (ring : KeyRing) (file name : String) :
    (collect t p ring file).entries.lookup name =
      if file = name ++ ".pub" then (usable? t p name).or (ring.entries.lookup name)
      else ring.entries.lookup name := by
  rw [collect]
  cases ho : owner? file with
  | none =>
    split_ifs with hf
    · have hempty : name = "" := by
        by_contra hne
        rw [owner?_eq_some_iff.2 ⟨hne, hf⟩] at ho
        cases ho
      subst hempty
      rfl
    · rfl
  | some owner =>
    obtain ⟨-, hfile⟩ := owner?_eq_some_iff.1 ho
    subst hfile
    have hname : owner ++ ".pub" = name ++ ".pub" ↔ name = owner := by
      simp [← String.toList_inj, eq_comm]
    simp only [hname, KeyRing.insert]
    cases hload : PublicKey.load t (p.entry (owner ++ ".pub")) with
    | error e =>
      split_ifs with hn
      · subst hn
        simp [usable?, hload, bind, Except.bind, Except.toOption]
      · rfl
    | ok key =>
      by_cases hv : Principal.IsValid owner
      · simp only [Principal.check_eq_ok_iff.2 hv, bind, Except.bind, pure, Except.pure,
          KeyRing.lookup_put]
        split_ifs with hn
        · subst hn
          simp [usable?, hload, hv, Except.toOption]
        · rfl
      · simp only [Principal.check, if_neg hv, bind, Except.bind]
        split_ifs with hn
        · subst hn
          simp [usable?, hv]
        · rfl

theorem lookup_foldl_collect (names : List String) (ring : KeyRing) (name : String) :
    (names.foldl (collect t p) ring).entries.lookup name =
      if name ++ ".pub" ∈ names then (usable? t p name).or (ring.entries.lookup name)
      else ring.entries.lookup name := by
  induction names generalizing ring with
  | nil => simp
  | cons file names ih =>
    rw [List.foldl_cons, ih, lookup_collect]
    by_cases hf : file = name ++ ".pub"
    · cases usable? t p name <;> simp [hf]
    · simp [hf, eq_comm]

theorem keyed_collect (h : ring.Keyed) (file : String) : (collect t p ring file).Keyed := by
  rw [collect]
  cases owner? file with
  | none => exact h
  | some owner =>
    dsimp only
    split
    next ring' hok =>
      simp only [Outcome.bind_eq_ok_iff, KeyRing.insert] at hok
      obtain ⟨key, -, _, -, hput⟩ := hok
      cases hput
      exact h.put owner key
    next => exact h

theorem scan_eq_ok_iff : scan t p = .ok ring ↔
    ∃ names, t.list p = .ok names ∧ ring = names.foldl (collect t p) .empty := by
  rw [scan]
  cases t.list p <;> simp [eq_comm]

/-- A directory can be read whenever its files can be listed, whatever is in them. -/
theorem isOk_scan : (scan t p).isOk ↔ ∃ names, t.list p = .ok names := by
  rw [scan]
  cases t.list p <;> simp [Except.isOk, Except.toBool]

theorem keyed_scan (h : scan t p = .ok ring) : ring.Keyed := by
  obtain ⟨names, -, hring⟩ := scan_eq_ok_iff.1 h
  subst hring
  have hfold : ∀ (names : List String) (ring : KeyRing), ring.Keyed →
      (names.foldl (collect t p) ring).Keyed := by
    intro names
    induction names with
    | nil => exact fun _ h => h
    | cons file names ih => exact fun _ h => ih _ (keyed_collect h file)
  exact hfold names .empty List.nodup_nil

end KeyDirectory

/-- A directory as it is read: where it is, and what the files are at that time. -/
structure Snapshot where
  tree : FileTree
  path : Path

namespace Snapshot

variable {r : Snapshot} {name : String} {key key' : PublicKey} {ring : KeyRing}
  {o : Outcome PublicKey}

/-- The directory lists a file of this name, and it reads as this text. -/
def Holds (r : Snapshot) (file text : String) : Prop :=
  ∃ names, r.tree.list r.path = .ok names ∧ file ∈ names ∧
    r.tree.readText (r.path.entry file) = .ok text

/-- The name is that of a principal, and the file named after it holds the text of this key, between
blanks. -/
def Resolves (r : Snapshot) (name : String) (key : PublicKey) : Prop :=
  Principal.IsValid name ∧ ∃ text, r.Holds (name ++ ".pub") text ∧
    String.ofList (Blank.trim text.toList) = key.toBase64

theorem Resolves.unique (h : r.Resolves name key) (h' : r.Resolves name key') : key = key' := by
  obtain ⟨-, text, ⟨_, -, -, htext⟩, hkey⟩ := h
  obtain ⟨-, text', ⟨_, -, -, htext'⟩, hkey'⟩ := h'
  rw [htext] at htext'
  cases htext'
  exact PublicKey.canonical.write_injective (hkey.symm.trans hkey')

/-- **What is collected is what the files say**, name by name. -/
theorem lookup_scan (h : KeyDirectory.scan r.tree r.path = .ok ring) :
    ring.entries.lookup name = some key ↔ r.Resolves name key := by
  obtain ⟨names, hlist, hring⟩ := KeyDirectory.scan_eq_ok_iff.1 h
  subst hring
  rw [KeyDirectory.lookup_foldl_collect]
  simp only [Resolves, Holds, hlist, Except.ok.injEq, exists_eq_left', KeyRing.empty,
    List.lookup_nil, Option.or_none, KeyDirectory.usable?]
  by_cases hv : Principal.IsValid name
  · by_cases hm : name ++ ".pub" ∈ names
    · rw [if_pos hm, if_pos hv]
      simp only [hv, hm, true_and, ← PublicKey.load_eq_ok_iff]
      cases PublicKey.load r.tree (r.path.entry (name ++ ".pub")) <;> simp [Except.toOption]
    · simp [hm]
  · simp [hv]

/-- What a lookup answers from a reading. -/
inductive Answers (r : Snapshot) (name : String) : Outcome PublicKey → Prop where
  | key {key : PublicKey} (h : r.Resolves name key) : Answers r name (.ok key)
  | unknown (hv : Principal.IsValid name) (h : ∀ key, ¬r.Resolves name key) :
      Answers r name (.error (.unknownPrincipal name))
  | invalid (h : ¬Principal.IsValid name) : Answers r name (.error (Principal.invalid name))

theorem answers_find (h : KeyDirectory.scan r.tree r.path = .ok ring) (name : String) :
    r.Answers name (KeyDirectory.find ⟨r.path, ring⟩ name) := by
  rw [KeyDirectory.find]
  by_cases hv : Principal.IsValid name
  · rw [Principal.check_eq_ok_iff.2 hv]
    show r.Answers name (ring.find name)
    rw [KeyRing.find]
    cases hl : ring.entries.lookup name with
    | some key => exact .key ((lookup_scan h).1 hl)
    | none =>
      refine .unknown hv ?_
      intro key hkey
      rw [(lookup_scan h).2 hkey] at hl
      cases hl
  · rw [Principal.check, if_neg hv]
    exact .invalid hv

theorem Answers.eq_ok_iff (h : r.Answers name o) : o = .ok key ↔ r.Resolves name key := by
  cases h with
  | key hkey =>
    constructor
    · intro heq
      cases heq
      exact hkey
    · intro hkey'
      rw [hkey.unique hkey']
  | unknown _ hnone => simp [hnone key]
  | invalid hv => simp [Resolves, hv]

/-- No other file has a part in what a name is answered. -/
theorem Answers.of_holds {r' : Snapshot} (h : r.Answers name o)
    (hown : ∀ text, r.Holds (name ++ ".pub") text ↔ r'.Holds (name ++ ".pub") text) :
    r'.Answers name o := by
  have hresolves : ∀ key, r.Resolves name key ↔ r'.Resolves name key := by
    intro key
    simp only [Resolves, hown]
  cases h with
  | key hkey => exact .key ((hresolves _).1 hkey)
  | unknown hv hnone => exact .unknown hv fun key hkey => hnone key ((hresolves key).2 hkey)
  | invalid hv => exact .invalid hv

/-- These are the names that resolve, each once. -/
def Lists (r : Snapshot) (names : List String) : Prop :=
  names.Nodup ∧ ∀ name, name ∈ names ↔ ∃ key, r.Resolves name key

theorem exists_lists (h : KeyDirectory.scan r.tree r.path = .ok ring) :
    ∃ names, r.Lists names ∧ ring.size = names.length := by
  refine ⟨ring.entries.map Prod.fst, ⟨KeyDirectory.keyed_scan h, ?_⟩, (List.length_map _).symm⟩
  intro name
  rw [← Entries.isSome_lookup_iff, Option.isSome_iff_exists]
  exact exists_congr fun _ => lookup_scan h

end Snapshot

/-! ## Turns -/

/-- The files, and a key directory once one has been opened. -/
structure KeyShelf where
  tree : FileTree
  directory : Option KeyDirectory

namespace KeyDirectory

/-- What happens to the files or to the directory, and what was answered. -/
inductive Turn where
  /-- Somebody writes files, removes them, or changes them in any other way. -/
  | change (tree : FileTree)
  | opened (path : Path) (result : Outcome Unit)
  | reload (result : Outcome Nat)
  | find (name : String) (result : Outcome PublicKey)

/-- The turns that are possible, and what there is after each. Opening another directory puts it in
the place of the first, if it succeeds. -/
inductive Takes (s : KeyShelf) : Turn → KeyShelf → Prop where
  | change (tree : FileTree) : Takes s (.change tree) { s with tree }
  | opened {path : Path} {d : KeyDirectory} (h : readFrom s.tree path = .ok d) :
      Takes s (.opened path (.ok ())) { s with directory := some d }
  | refused {path : Path} {e : ChatError} (h : readFrom s.tree path = .error e) :
      Takes s (.opened path (.error e)) s
  | reload {d : KeyDirectory} (h : s.directory = some d) :
      Takes s (.reload (d.reload s.tree).1) { s with directory := some (d.reload s.tree).2 }
  | find {d : KeyDirectory} (h : s.directory = some d) (name : String) :
      Takes s (.find name (d.find name)) s

/-- What the files are, and the last reading that has succeeded. -/
structure Noted where
  files : FileTree
  reading : Option Snapshot

/-- What a turn changes of it. -/
def Noted.next (n : Noted) : Turn → Noted
  | .change tree => { n with files := tree }
  | .opened path (.ok _) => { n with reading := some ⟨n.files, path⟩ }
  | .reload (.ok _) => { n with reading := n.reading.map fun r => ⟨n.files, r.path⟩ }
  | _ => n

/-- What turns leave that begin with these files. -/
def noted (tree : FileTree) (turns : List Turn) : Noted := turns.foldl Noted.next ⟨tree, none⟩

/-- The turns in which the directory is read anew. -/
def Turn.Reads : Turn → Prop
  | .opened _ o => o.isOk
  | .reload o => o.isOk
  | _ => False

variable {tree : FileTree} {s s' : KeyShelf} {n : Noted} {u : Turn} {turns : List Turn}
  {d : KeyDirectory}

theorem noted_snoc (tree : FileTree) (turns : List Turn) (u : Turn) :
    noted tree (turns ++ [u]) = (noted tree turns).next u := by
  rw [noted, List.foldl_append]
  rfl

theorem readFrom_eq_ok_iff : readFrom t p = .ok d ↔ d.path = p ∧ scan t p = .ok d.ring := by
  obtain ⟨path, ring⟩ := d
  rw [readFrom, Outcome.bind_eq_ok_iff]
  constructor
  · intro ⟨ring', hscan, heq⟩
    cases heq
    exact ⟨rfl, hscan⟩
  · intro ⟨hp, hscan⟩
    subst hp
    exact ⟨ring, hscan, rfl⟩

theorem isOk_readFrom : (readFrom t p).isOk ↔ ∃ names, t.list p = .ok names := by
  rw [← isOk_scan, readFrom]
  cases scan t p <;> rfl

/-- Reading again gives a directory that has just been read, or leaves it as it was. -/
theorem reload_cases (d : KeyDirectory) (t : FileTree) :
    (∃ ring, scan t d.path = .ok ring ∧ d.reload t = (.ok ring.size, ⟨d.path, ring⟩)) ∨
      ∃ e, scan t d.path = .error e ∧ d.reload t = (.error e, d) := by
  rw [reload]
  cases hscan : scan t d.path with
  | ok ring => exact .inl ⟨ring, rfl, rfl⟩
  | error e => exact .inr ⟨e, rfl, rfl⟩

theorem takes_reload_iff {o : Outcome Nat} : Takes s (.reload o) s' ↔
    ∃ d, s.directory = some d ∧ o = (d.reload s.tree).1 ∧
      s' = { s with directory := some (d.reload s.tree).2 } := by
  constructor
  · generalize hu : Turn.reload o = u
    intro h
    cases h with
    | reload hd =>
      cases hu
      exact ⟨_, hd, rfl, rfl⟩
    | _ => cases hu
  · intro ⟨d, hd, ho, hs⟩
    subst ho hs
    exact .reload hd

/-- A turn without a reading changes nothing of the directory. -/
theorem Takes.directory_eq (h : Takes s u s') (hu : ¬u.Reads) : s'.directory = s.directory := by
  cases h with
  | opened => exact absurd rfl hu
  | @reload d hd =>
    obtain ⟨ring, -, hreload⟩ | ⟨e, -, hreload⟩ := reload_cases d s.tree
    · rw [hreload] at hu
      exact absurd rfl hu
    · rw [hreload, hd]
  | _ => rfl

/-- The files are as noted, and a directory is what the last reading collected. -/
structure Stands (n : Noted) (s : KeyShelf) : Prop where
  files : s.tree = n.files
  reading : ∀ {d}, s.directory = some d →
    ∃ r, n.reading = some r ∧ d.path = r.path ∧ scan r.tree r.path = .ok d.ring

/-- Every turn keeps what is known of the directory. -/
theorem Stands.turn (h : Stands n s) (ht : Takes s u s') : Stands (n.next u) s' := by
  obtain ⟨hfiles, hreading⟩ := h
  cases ht with
  | change tree => exact ⟨rfl, hreading⟩
  | opened hopen =>
    obtain ⟨hpath, hscan⟩ := readFrom_eq_ok_iff.1 hopen
    rw [hfiles] at hscan
    refine ⟨hfiles, ?_⟩
    intro d hd
    cases hd
    exact ⟨_, rfl, hpath, hscan⟩
  | refused => exact ⟨hfiles, hreading⟩
  | find => exact ⟨hfiles, hreading⟩
  | @reload d hd =>
    obtain ⟨ring, hscan, hreload⟩ | ⟨e, -, hreload⟩ := reload_cases d s.tree
    · obtain ⟨r, hr, hpath, -⟩ := hreading hd
      rw [hreload]
      rw [hfiles, hpath] at hscan
      refine ⟨hfiles, ?_⟩
      intro d' hd'
      cases hd'
      exact ⟨⟨n.files, r.path⟩, by simp [Noted.next, hr], hpath, hscan⟩
    · rw [hreload, ← hd]
      exact ⟨hfiles, hreading⟩

theorem stands (h : History Takes ⟨tree, none⟩ turns s) : Stands (noted tree turns) s := by
  have hstart : Stands (noted tree []) ⟨tree, none⟩ := by
    refine ⟨rfl, ?_⟩
    intro d hd
    cases hd
  refine h.keeps (P := fun past m => Stands (noted tree past) m) ?_ hstart
  intro past m u m' hm hu
  rw [noted_snoc]
  exact hm.turn hu

/-! ## All turns -/

/-- **A lookup answers from the last reading**: it finds just the key that resolves there. -/
theorem answers_of_find {before after : List Turn} {name : String} {o : Outcome PublicKey}
    (h : History Takes ⟨tree, none⟩ (before ++ .find name o :: after) s) :
    ∃ r, (noted tree before).reading = some r ∧ r.Answers name o := by
  obtain ⟨m, m', hbefore, hfind, -⟩ := History.turn_iff.1 h
  cases hfind with
  | @find d hd =>
    obtain ⟨r, hr, hpath, hscan⟩ := (stands hbefore).reading hd
    refine ⟨r, hr, ?_⟩
    have hanswers := Snapshot.answers_find hscan name
    rwa [← hpath] at hanswers

/-- Reading again tells how many names resolve from then on. -/
theorem lists_of_reload {before after : List Turn} {count : Nat}
    (h : History Takes ⟨tree, none⟩ (before ++ .reload (.ok count) :: after) s) :
    ∃ r names, (noted tree (before ++ [.reload (.ok count)])).reading = some r ∧
      r.tree = (noted tree before).files ∧ r.Lists names ∧ count = names.length := by
  obtain ⟨m, m', hbefore, hreload, -⟩ := History.turn_iff.1 h
  have hstands := stands hbefore
  obtain ⟨d, hd, hcount, -⟩ := takes_reload_iff.1 hreload
  obtain ⟨r, hr, hpath, -⟩ := hstands.reading hd
  obtain ⟨ring, hscan, heq⟩ | ⟨e, -, heq⟩ := reload_cases d m.tree
  · rw [heq] at hcount
    cases hcount
    rw [hpath, hstands.files] at hscan
    obtain ⟨names, hlists, hsize⟩ := Snapshot.exists_lists (r := ⟨_, r.path⟩) hscan
    refine ⟨_, names, ?_, rfl, hlists, hsize⟩
    rw [noted_snoc, Noted.next, hr]
    rfl
  · rw [heq] at hcount
    cases hcount

/-- Until the directory is read anew a lookup answers as it did. -/
theorem find_eq_find {before between after : List Turn} {name : String} {o o' : Outcome PublicKey}
    (h : History Takes ⟨tree, none⟩
      (before ++ .find name o :: (between ++ .find name o' :: after)) s)
    (hb : ∀ u ∈ between, ¬u.Reads) : o' = o := by
  obtain ⟨m, m', -, hfind, hrest⟩ := History.turn_iff.1 h
  obtain ⟨l, l', hbetween, hfind', -⟩ := History.turn_iff.1 hrest
  have hkept : l.directory = m'.directory :=
    hbetween.stays (f := KeyShelf.directory) (fun _ _ _ hu ht => ht.directory_eq hu) hb
  cases hfind with
  | find hd =>
    cases hfind' with
    | find hd' =>
      rw [hkept, hd] at hd'
      cases hd'
      rfl

/-- A directory that can be listed is read, whatever is in it. -/
theorem isOk_opened {before after : List Turn} {o : Outcome Unit}
    (h : History Takes ⟨tree, none⟩ (before ++ .opened p o :: after) s) :
    o.isOk ↔ ∃ names, (noted tree before).files.list p = .ok names := by
  obtain ⟨m, m', hbefore, hopen, -⟩ := History.turn_iff.1 h
  rw [← (stands hbefore).files, ← isOk_readFrom]
  cases hopen with
  | opened hok => simp [hok, Except.isOk, Except.toBool]
  | refused herror => simp [herror, Except.isOk, Except.toBool]

theorem isOk_reload {before after : List Turn} {o : Outcome Nat}
    (h : History Takes ⟨tree, none⟩ (before ++ .reload o :: after) s) :
    ∃ r, (noted tree before).reading = some r ∧
      (o.isOk ↔ ∃ names, (noted tree before).files.list r.path = .ok names) := by
  obtain ⟨m, m', hbefore, hreload, -⟩ := History.turn_iff.1 h
  obtain ⟨d, hd, ho, -⟩ := takes_reload_iff.1 hreload
  have hstands := stands hbefore
  obtain ⟨r, hr, hpath, -⟩ := hstands.reading hd
  refine ⟨r, hr, ?_⟩
  rw [← hpath, ← hstands.files, ← isOk_scan, ho]
  obtain ⟨ring, hscan, heq⟩ | ⟨e, hscan, heq⟩ := reload_cases d m.tree
  · rw [hscan, heq]
    rfl
  · rw [hscan, heq]
    rfl

/-- **A lookup tells what the files said when the directory was last read.** However files are
written or removed, and however often the directory is opened, read again and asked: a name is
answered as the file named after it says at the last reading, with its key just when it resolves
there, and stays so answered until the next. No other file has a part in that. Reading again counts
the names that resolve from then on. It fails only where the directory cannot be listed, whatever its
files hold, and a failure is no reading. -/
theorem lookups_from_last_reading (h : History Takes ⟨tree, none⟩ turns s) :
    (∀ before name o after, turns = before ++ .find name o :: after →
      ∃ r, (noted tree before).reading = some r ∧ r.Answers name o ∧
        (∀ key, o = .ok key ↔ r.Resolves name key) ∧
        ∀ r' : Snapshot, (∀ text, r.Holds (name ++ ".pub") text ↔ r'.Holds (name ++ ".pub") text) →
          r'.Answers name o) ∧
    (∀ before name o between o' after,
      turns = before ++ .find name o :: (between ++ .find name o' :: after) →
      (∀ u ∈ between, ¬u.Reads) → o' = o) ∧
    (∀ before count after, turns = before ++ .reload (.ok count) :: after →
      ∃ r names, (noted tree (before ++ [.reload (.ok count)])).reading = some r ∧
        r.tree = (noted tree before).files ∧ r.Lists names ∧ count = names.length) ∧
    (∀ before path o after, turns = before ++ .opened path o :: after →
      (o.isOk ↔ ∃ names, (noted tree before).files.list path = .ok names)) ∧
    ∀ before o after, turns = before ++ .reload o :: after →
      ∃ r, (noted tree before).reading = some r ∧
        (o.isOk ↔ ∃ names, (noted tree before).files.list r.path = .ok names) := by
  refine ⟨?_, ?_, ?_, ?_, ?_⟩
  · intro before name o after hturns
    obtain ⟨r, hr, hanswers⟩ := answers_of_find (hturns ▸ h)
    exact ⟨r, hr, hanswers, fun _ => hanswers.eq_ok_iff, fun _ => hanswers.of_holds⟩
  · intro before name o between o' after hturns
    exact find_eq_find (hturns ▸ h)
  · intro before count after hturns
    exact lists_of_reload (hturns ▸ h)
  · intro before path o after hturns
    exact isOk_opened (hturns ▸ h)
  · intro before o after hturns
    exact isOk_reload (hturns ▸ h)

/-- A directory with key files of alice and of bob, as far as they have one. -/
def shelved (alice? bob? : Option String) : FileTree :=
  ⟨(["keys"], .directory) ::
    [("alice.pub", alice?), ("bob.pub", bob?)].filterMap fun (file, text?) =>
      text?.map fun text => (["keys", file], .file (Utf8.encode text)), []⟩

def oneKey : PublicKey := ⟨⟨List.replicate 32 1, rfl⟩⟩

/-- Bob's file is no key until alice's is taken away. -/
def untilAliceLeaves : List Turn :=
  [.opened ⟨"keys"⟩ (.ok ()), .find "alice" (.ok oneKey),
    .find "bob" (.error (.unknownPrincipal "bob")),
    .change (shelved none (some oneKey.toBase64)), .find "alice" (.ok oneKey),
    .reload (.ok 1), .find "alice" (.error (.unknownPrincipal "alice")), .find "bob" (.ok oneKey)]

def keyOf (name : String) : KeyDirectory := ⟨⟨"keys"⟩, ⟨[(name, oneKey)]⟩⟩

theorem history_untilAliceLeaves :
    History Takes ⟨shelved (some (oneKey.toBase64 ++ "\n")) (some "lost"), none⟩ untilAliceLeaves
      ⟨shelved none (some oneKey.toBase64), some (keyOf "bob")⟩ := by
  have hopen : readFrom (shelved (some (oneKey.toBase64 ++ "\n")) (some "lost")) ⟨"keys"⟩ =
      .ok (keyOf "alice") := by rfl
  have hreload : (keyOf "alice").reload (shelved none (some oneKey.toBase64)) =
      (.ok 1, keyOf "bob") := by rfl
  have hfind : ∀ {tree name d o}, d.find name = o →
      Takes ⟨tree, some d⟩ (.find name o) ⟨tree, some d⟩ := by
    intro tree name d o ho
    subst ho
    exact .find rfl name
  refine .cons (.opened hopen) (.cons (hfind ?_) (.cons (hfind ?_) (.cons (.change _)
    (.cons (hfind ?_) (.cons (takes_reload_iff.2 ⟨keyOf "alice", rfl, ?_, ?_⟩)
      (.cons (hfind ?_) (.cons (hfind ?_) (.nil _))))))))
  · rfl
  · rfl
  · rfl
  · rw [hreload]
  · rw [hreload]
  · rfl
  · rfl

theorem lookups_until_alice_leaves :
    (∃ s, History Takes ⟨shelved (some (oneKey.toBase64 ++ "\n")) (some "lost"), none⟩
        untilAliceLeaves s) ∧
      Snapshot.Resolves ⟨shelved none (some oneKey.toBase64), ⟨"keys"⟩⟩ "bob" oneKey ∧
      ¬∃ key, Snapshot.Resolves ⟨shelved none (some oneKey.toBase64), ⟨"keys"⟩⟩ "alice" key := by
  obtain ⟨hfind, -⟩ := lookups_from_last_reading history_untilAliceLeaves
  obtain ⟨r, hr, -, hbob, -⟩ := hfind (untilAliceLeaves.take 7) "bob" _ [] rfl
  obtain ⟨r', hr', -, halice, -⟩ := hfind (untilAliceLeaves.take 6) "alice" _ [_] rfl
  cases hr
  cases hr'
  refine ⟨⟨_, history_untilAliceLeaves⟩, (hbob oneKey).1 rfl, ?_⟩
  intro ⟨key, hkey⟩
  have := (halice key).2 hkey
  cases this

end KeyDirectory

end SealedChat
