import PatternLint.Proofs.Except
import PatternLint.Proofs.Source.Load
import PatternLint.Proofs.Source.Loadable

/-!
This module contains the law of the result of loading: which of its failures loading ends with, and what
it gives otherwise, in terms of the files that can be loaded.
-/

namespace PatternLint

namespace Sources

section Spec

variable (files : Path → ByteArray → Prop)

def FirstUnreadable (path : Path) : Prop :=
  ∃ content, files path content ∧ String.fromUTF8? content = none
    ∧ ∀ other content', files other content' → String.fromUTF8? content' = none →
      other = path ∨ path.IsBefore other

def AllReadable : Prop :=
  ∀ path content, files path content → ∃ text, String.fromUTF8? content = some text

def Rejects (failure : ParseFailure) : Prop :=
  ∃ path content text e, files path content ∧ String.fromUTF8? content = some text
    ∧ Syntax.Tree.ofSource text = .error e ∧ failure = ⟨path, e.location, e.message⟩

def AllParsable : Prop :=
  ∀ path content, files path content →
    ∃ text tree, String.fromUTF8? content = some text ∧ Syntax.Tree.ofSource text = .ok tree

/-- Loaded sources have the files for keys, and each key leads to what its file is parsed as. -/
structure Holds (root : Path) (sources : Sources) : Prop where
  root_eq : sources.root = root
  key_iff : ∀ key, sources.files.contains key = true
    ↔ ∃ path content, files path content ∧ path.components = key
  parsed : ∀ path content text tree, files path content → String.fromUTF8? content = some text →
    Syntax.Tree.ofSource text = .ok tree → sources.file? path = some ⟨path, tree⟩

end Spec

abbrev filesOf (entries : List (Path × ByteArray)) (path : Path) (content : ByteArray) : Prop :=
  (path, content) ∈ entries

def ofEntries (root : Path) (entries : List (Path × ByteArray)) : Except LoadError Sources := do
  let texts ← readAll entries
  match parseAll texts with
  | ([], files) => return ofFiles root files
  | (failures, _) => throw (.parse failures)

theorem load_eq_ofEntries {tree : FileTree} {root : Path} {ignored : PathSet}
    {entries : List (Path × ByteArray)} (hroot : ignored.has root = false)
    (hwalk : sourcesFrom tree root ignored = .ok entries)
    : load tree root ignored = ofEntries root entries := by
  unfold load ofEntries
  rw [hroot, hwalk, if_neg (by simp)]
  rfl

theorem text?_eq_some_iff {path p : Path} {content : ByteArray} {text : String}
    : text? (path, content) = some (p, text) ↔ String.fromUTF8? content = some text ∧ p = path := by
  unfold text? FileTree.decode
  cases String.fromUTF8? content with
  | none => simp [Except.toOption]
  | some other => simp [Except.toOption, and_comm, eq_comm]

theorem text?_eq_none_iff {path : Path} {content : ByteArray}
    : text? (path, content) = none ↔ String.fromUTF8? content = none := by
  unfold text? FileTree.decode
  cases String.fromUTF8? content <;> simp [Except.toOption]

/-! ### Files that are no text -/

theorem FirstUnreadable.unique {files : Path → ByteArray → Prop} {path other : Path}
    (h : FirstUnreadable files path) (h' : FirstUnreadable files other) : path = other := by
  obtain ⟨content, hmem, htext, hfirst⟩ := h
  obtain ⟨content', hmem', htext', hfirst'⟩ := h'
  rcases hfirst other content' hmem' htext' with hsame | hbefore
  . exact hsame.symm
  . rcases hfirst' path content hmem htext with hsame | hafter
    . exact hsame
    . exact absurd hafter hbefore.asymm

theorem firstUnreadable_of_error {entries : List (Path × ByteArray)} {e : LoadError}
    (hsorted : entries.Pairwise fun a b => a.1.IsBefore b.1) (h : readAll entries = .error e)
    : ∃ path, e = .io path .notText ∧ FirstUnreadable (filesOf entries) path := by
  induction entries with
  | nil => contradiction
  | cons entry entries ih =>
    obtain ⟨path, content⟩ := entry
    obtain ⟨hafter, hsorted⟩ := List.pairwise_cons.1 hsorted
    rw [readAll, FileTree.decode] at h
    cases htext : String.fromUTF8? content with
    | none =>
      rw [htext] at h
      cases h
      refine ⟨path, rfl, content, List.mem_cons_self, htext, ?_⟩
      intro other content' hmem _
      rcases List.mem_cons.1 hmem with heq | hmem
      . cases heq
        exact .inl rfl
      . exact .inr (hafter (other, content') hmem)
    | some text =>
      rw [htext] at h
      obtain ⟨first, he, content', hmem, hnone, hfirst⟩ := ih hsorted (map_eq_error_iff.1 h)
      refine ⟨first, he, content', List.mem_cons_of_mem _ hmem, hnone, ?_⟩
      intro other content'' hother hnone'
      rcases List.mem_cons.1 hother with heq | hother
      . cases heq
        rw [htext] at hnone'
        contradiction
      . exact hfirst other content'' hother hnone'

theorem readAll_eq_error_iff {entries : List (Path × ByteArray)} {e : LoadError}
    (hsorted : entries.Pairwise fun a b => a.1.IsBefore b.1)
    : readAll entries = .error e ↔ ∃ path, e = .io path .notText ∧ FirstUnreadable (filesOf entries) path := by
  constructor
  . apply firstUnreadable_of_error hsorted
  . rintro ⟨path, rfl, hfirst⟩
    cases hread : readAll entries with
    | ok texts =>
      obtain ⟨content, hmem, htext, _⟩ := hfirst
      have := (readAll_eq_ok_iff.1 hread).1 _ hmem
      rw [text?_eq_none_iff.2 htext] at this
      contradiction
    | error e =>
      obtain ⟨other, rfl, hother⟩ := firstUnreadable_of_error hsorted hread
      rw [hfirst.unique hother]

/-! ### Texts that cannot be parsed -/

def failure? (entry : Path × String) : Option ParseFailure :=
  match ParsedFile.ofText entry.1 entry.2 with
  | .error failure => some failure
  | .ok _ => none

theorem parseAll_fst (texts : List (Path × String)) : (parseAll texts).1 = texts.filterMap failure? := by
  induction texts with
  | nil => rfl
  | cons text texts ih =>
    rw [parseAll_cons, List.filterMap_cons]
    unfold failure?
    cases ParsedFile.ofText text.1 text.2 with
    | error failure => exact congrArg _ ih
    | ok file => exact ih

theorem failure?_eq_some_iff {path : Path} {text : String} {failure : ParseFailure}
    : failure? (path, text) = some failure
        ↔
      ∃ e, Syntax.Tree.ofSource text = .error e ∧ failure = ⟨path, e.location, e.message⟩ := by
  unfold failure? ParsedFile.ofText
  cases Syntax.Tree.ofSource text with
  | error e => simp [eq_comm]
  | ok tree => simp

theorem readAll_ne_parse {entries : List (Path × ByteArray)} {failures : List ParseFailure}
    : readAll entries ≠ .error (.parse failures) := by
  induction entries with
  | nil => simp [readAll]
  | cons entry entries ih =>
    rw [readAll]
    cases FileTree.decode entry.2 with
    | error e => simp
    | ok text => rwa [Ne, map_eq_error_iff]

theorem ofEntries_eq_error_iff {root : Path} {entries : List (Path × ByteArray)} {e : LoadError}
    : ofEntries root entries = .error e
        ↔
      readAll entries = .error e
        ∨ ∃ texts, readAll entries = .ok texts ∧ texts.filterMap failure? ≠ []
          ∧ e = .parse (texts.filterMap failure?) := by
  unfold ofEntries
  rw [bind_eq_error_iff]
  apply or_congr_right
  apply exists_congr
  intro texts
  apply and_congr_right
  intro _
  rw [← parseAll_fst]
  cases parseAll texts with
  | mk failures files =>
    cases failures with
    | nil => simp [pure, Except.pure]
    | cons failure failures => simp [throw, throwThe, MonadExceptOf.throw, eq_comm]

theorem ofEntries_eq_io_iff {root : Path} {entries : List (Path × ByteArray)} {path : Path} {e : IoError}
    (hsorted : entries.Pairwise fun a b => a.1.IsBefore b.1)
    : ofEntries root entries = .error (.io path e)
        ↔
      e = .notText ∧ FirstUnreadable (filesOf entries) path := by
  rw [ofEntries_eq_error_iff, readAll_eq_error_iff hsorted]
  constructor
  . rintro (⟨other, heq, hfirst⟩ | ⟨texts, _, _, heq⟩)
    . cases heq
      exact ⟨rfl, hfirst⟩
    . cases heq
  . rintro ⟨rfl, hfirst⟩
    exact .inl ⟨path, rfl, hfirst⟩

theorem ofEntries_ne_walk {root : Path} {entries : List (Path × ByteArray)} {path : Path} {message : String}
    (hsorted : entries.Pairwise fun a b => a.1.IsBefore b.1)
    : ofEntries root entries ≠ .error (.walk path message) := by
  rw [Ne, ofEntries_eq_error_iff, readAll_eq_error_iff hsorted]
  rintro (⟨other, heq, _⟩ | ⟨texts, _, _, heq⟩) <;> cases heq

def failuresOf (entries : List (Path × ByteArray)) : List ParseFailure :=
  (entries.filterMap text?).filterMap failure?

theorem mem_failuresOf_iff {entries : List (Path × ByteArray)} {failure : ParseFailure}
    : failure ∈ failuresOf entries ↔ Rejects (filesOf entries) failure := by
  unfold failuresOf Rejects
  simp only [List.mem_filterMap, Prod.exists, text?_eq_some_iff, failure?_eq_some_iff]
  constructor
  . rintro ⟨p, text, ⟨path, content, hmem, htext, rfl⟩, e, herror, hfailure⟩
    exact ⟨p, content, text, e, hmem, htext, herror, hfailure⟩
  . rintro ⟨path, content, text, e, hmem, htext, herror, hfailure⟩
    exact ⟨path, text, ⟨path, content, hmem, htext, rfl⟩, e, herror, hfailure⟩

theorem pairwise_failuresOf {entries : List (Path × ByteArray)}
    (hsorted : entries.Pairwise fun a b => a.1.IsBefore b.1)
    : (failuresOf entries).Pairwise fun f g => f.path.IsBefore g.path := by
  unfold failuresOf
  rw [List.pairwise_filterMap, List.pairwise_filterMap]
  apply hsorted.imp
  rintro ⟨path, content⟩ ⟨path', content'⟩ hbefore ⟨p, text⟩ htext ⟨p', text'⟩ htext' f hf g hg
  obtain ⟨_, rfl⟩ := text?_eq_some_iff.1 htext
  obtain ⟨_, rfl⟩ := text?_eq_some_iff.1 htext'
  obtain ⟨e, _, rfl⟩ := failure?_eq_some_iff.1 hf
  obtain ⟨e', _, rfl⟩ := failure?_eq_some_iff.1 hg
  exact hbefore

theorem forall_text?_isSome_iff {entries : List (Path × ByteArray)}
    : (∀ entry ∈ entries, (text? entry).isSome = true) ↔ AllReadable (filesOf entries) := by
  unfold AllReadable
  rw [Prod.forall]
  apply forall₃_congr
  intro path content _
  rw [Option.isSome_iff_ne_none, Ne, text?_eq_none_iff]
  exact Option.ne_none_iff_exists'

theorem eq_of_pairwise_isBefore {α : Type} (path : α → Path) {items others : List α}
    (hsorted : items.Pairwise fun a b => (path a).IsBefore (path b))
    (hsorted' : others.Pairwise fun a b => (path a).IsBefore (path b))
    (h : ∀ a, a ∈ items ↔ a ∈ others) : items = others := by
  have hirrefl : Std.Irrefl fun a b : α => (path a).IsBefore (path b) :=
    ⟨fun a => Path.isBefore_irrefl (path a)⟩
  have hantisymm : Std.Antisymm fun a b : α => (path a).IsBefore (path b) :=
    ⟨fun a b hlt hgt => absurd hgt hlt.asymm⟩
  exact List.Pairwise.eq_of_mem_iff hsorted hsorted' h

theorem ofEntries_eq_parse_iff {root : Path} {entries : List (Path × ByteArray)}
    {failures : List ParseFailure} (hsorted : entries.Pairwise fun a b => a.1.IsBefore b.1)
    : ofEntries root entries = .error (.parse failures)
        ↔
      failures ≠ [] ∧ AllReadable (filesOf entries)
        ∧ (failures.Pairwise fun f g => f.path.IsBefore g.path)
        ∧ ∀ failure, failure ∈ failures ↔ Rejects (filesOf entries) failure := by
  rw [ofEntries_eq_error_iff]
  simp only [readAll_ne_parse, false_or, ← mem_failuresOf_iff, ← forall_text?_isSome_iff]
  constructor
  . rintro ⟨texts, hread, hne, hfailures⟩
    obtain ⟨hall, rfl⟩ := readAll_eq_ok_iff.1 hread
    injection hfailures with hfailures
    subst hfailures
    exact ⟨hne, hall, pairwise_failuresOf hsorted, fun failure => Iff.rfl⟩
  . rintro ⟨hne, hall, hfailures, hmem⟩
    have heq := eq_of_pairwise_isBefore ParseFailure.path hfailures (pairwise_failuresOf hsorted) hmem
    rw [heq] at hne ⊢
    exact ⟨_, readAll_eq_ok_iff.2 ⟨hall, rfl⟩, hne, rfl⟩

/-! ### Loaded files -/

theorem ofContent?_eq_some_iff {path : Path} {content : ByteArray} {file : ParsedFile}
    : ParsedFile.ofContent? (path, content) = some file
        ↔
      ∃ text tree, String.fromUTF8? content = some text ∧ Syntax.Tree.ofSource text = .ok tree
        ∧ file = ⟨path, tree⟩ := by
  unfold ParsedFile.ofContent? ParsedFile.ofText FileTree.decode
  cases String.fromUTF8? content with
  | none => simp [Except.toOption]
  | some text =>
    simp only [Except.toOption, Option.bind_some, Option.some.injEq, exists_and_left, exists_eq_left']
    cases Syntax.Tree.ofSource text with
    | error e => simp
    | ok tree => simp [eq_comm]

theorem nodup_components {entries : List (Path × ByteArray)}
    (hsorted : entries.Pairwise fun a b => a.1.IsBefore b.1)
    : (entries.map fun entry => entry.1.components).Nodup := by
  rw [List.Nodup, List.pairwise_map]
  apply hsorted.imp
  intro a b hbefore heq
  unfold Path.IsBefore at hbefore
  rw [heq] at hbefore
  exact Path.isBefore_irrefl b.1 hbefore

theorem parses_iff_allParsable {entries : List (Path × ByteArray)}
    : Parses entries ↔ AllParsable (filesOf entries) := by
  unfold Parses AllParsable
  rw [Prod.forall]
  apply forall₃_congr
  intro path content _
  rw [Option.isSome_iff_exists]
  simp only [ofContent?_eq_some_iff]
  constructor
  . rintro ⟨file, text, tree, htext, htree, _⟩
    exact ⟨text, tree, htext, htree⟩
  . rintro ⟨text, tree, htext, htree⟩
    exact ⟨⟨path, tree⟩, text, tree, htext, htree, rfl⟩

theorem holds_ofWalk {root : Path} {entries : List (Path × ByteArray)}
    (hsorted : entries.Pairwise fun a b => a.1.IsBefore b.1) (hparses : Parses entries)
    : Holds (filesOf entries) root (ofWalk root entries) := by
  have hnodup := nodup_components hsorted
  refine ⟨rfl, ?_, ?_⟩
  . intro key
    rw [contains_ofWalk_iff hparses hnodup, Prod.exists]
  . intro path content text tree hfile htext htree
    apply (find?_ofWalk_eq_some_iff hparses hnodup).2
    exact ⟨_, hfile, ofContent?_eq_some_iff.2 ⟨text, tree, htext, htree, rfl⟩, rfl⟩

theorem Holds.unique {files : Path → ByteArray → Prop} {root : Path} {sources other : Sources}
    (hfiles : AllParsable files) (h : Holds files root sources) (h' : Holds files root other)
    : sources = other := by
  have hfind (key : List Path.Component) : sources.files.find? key = other.files.find? key := by
    cases hkey : sources.files.contains key with
    | true =>
      obtain ⟨path, content, hfile, rfl⟩ := (h.key_iff key).1 hkey
      obtain ⟨text, tree, htext, htree⟩ := hfiles path content hfile
      exact (h.parsed _ _ _ _ hfile htext htree).trans (h'.parsed _ _ _ _ hfile htext htree).symm
    | false =>
      have hkey' : other.files.contains key = false := by
        rw [Bool.eq_false_iff, Ne, h'.key_iff, ← h.key_iff, hkey]
        simp
      unfold SortedMap.contains at hkey hkey'
      rw [Option.isSome_eq_false_iff, Option.isNone_iff_eq_none] at hkey hkey'
      rw [hkey, hkey']
  cases sources
  cases other
  cases h.root_eq
  cases h'.root_eq
  exact congrArg _ (SortedMap.eq_of_find?_eq hfind)

theorem load_eq_ok_iff_holds {tree : FileTree} {root : Path} {ignored : PathSet}
    {entries : List (Path × ByteArray)} {sources : Sources}
    (hwalk : walkOf tree root ignored = .ok entries)
    (hsorted : entries.Pairwise fun a b => a.1.IsBefore b.1)
    : load tree root ignored = .ok sources
        ↔
      AllParsable (filesOf entries) ∧ Holds (filesOf entries) root sources := by
  simp only [load_eq_ok_iff, hwalk, Except.ok.injEq, exists_eq_left', parses_iff_allParsable]
  constructor
  . rintro ⟨hparsable, rfl⟩
    exact ⟨hparsable, holds_ofWalk hsorted (parses_iff_allParsable.2 hparsable)⟩
  . rintro ⟨hparsable, hholds⟩
    have hloaded : Holds (filesOf entries) root (ofWalk root entries) :=
      holds_ofWalk hsorted (parses_iff_allParsable.2 hparsable)
    exact ⟨hparsable, hholds.unique hparsable hloaded⟩

/-! ### The law -/

/--
The law of the result of loading. If a file that can be loaded is no text, loading ends with the first one of
them in the order of paths. Otherwise it ends with the failures to parse, if there are any, in the same order,
and gives all files that can be loaded if there are none. It depends on these files alone.
-/
theorem load_result (system : SortedFileSystem) (root : Path) (ignored : PathSet)
    (hstart : ∃ start, WalkStart.find system.tree root = .ok start)
    : (ignored.has root = true → ∀ other : FileTree, load other root ignored = .ok ⟨root, .empty⟩)
        ∧ (ignored.has root = false →
          (∃ entries, sourcesFrom system.tree root ignored = .ok entries
            ∧ (∀ path content, (path, content) ∈ entries ↔ IsLoadable system.tree root ignored path content)
            ∧ entries.Pairwise fun a b => a.1.IsBefore b.1)
          ∧ (∀ path e, load system.tree root ignored = .error (.io path e)
            ↔ e = .notText ∧ FirstUnreadable (IsLoadable system.tree root ignored) path)
          ∧ (∀ failures, load system.tree root ignored = .error (.parse failures)
            ↔ failures ≠ [] ∧ AllReadable (IsLoadable system.tree root ignored)
              ∧ (failures.Pairwise fun f g => f.path.IsBefore g.path)
              ∧ ∀ failure, failure ∈ failures ↔ Rejects (IsLoadable system.tree root ignored) failure)
          ∧ (∀ sources, load system.tree root ignored = .ok sources
            ↔ AllParsable (IsLoadable system.tree root ignored)
              ∧ Holds (IsLoadable system.tree root ignored) root sources)
          ∧ (∀ path message, load system.tree root ignored ≠ .error (.walk path message))
          ∧ ∀ other : SortedFileSystem, (∃ start, WalkStart.find other.tree root = .ok start) →
            (∀ path content, IsLoadable other.tree root ignored path content
              ↔ IsLoadable system.tree root ignored path content) →
            load other.tree root ignored = load system.tree root ignored) := by
  constructor
  . intro hignored other
    unfold load
    rw [if_pos hignored]
    rfl
  . intro hroot
    obtain ⟨start, hstart⟩ := hstart
    obtain ⟨entries, hwalk, hmem, hsorted⟩ :=
      sourcesFrom_lists_loadable system.proper system.ordered hroot hstart
    have hfiles : IsLoadable system.tree root ignored = filesOf entries :=
      funext fun path => funext fun content => propext (hmem path content).symm
    have hload := load_eq_ofEntries hroot hwalk
    rw [hfiles]
    refine ⟨⟨entries, hwalk, fun path content => Iff.rfl, hsorted⟩, ?_, ?_, ?_, ?_, ?_⟩
    . intro path e
      rw [hload, ofEntries_eq_io_iff hsorted]
    . intro failures
      rw [hload, ofEntries_eq_parse_iff hsorted]
    . intro sources
      have hwalkOf : walkOf system.tree root ignored = .ok entries := by
        unfold walkOf
        rw [hroot, if_neg (by simp), hwalk]
      exact load_eq_ok_iff_holds hwalkOf hsorted
    . intro path message
      rw [hload]
      exact ofEntries_ne_walk hsorted
    . intro other ⟨start', hstart'⟩ hsame
      obtain ⟨entries', hwalk', hmem', hsorted'⟩ :=
        sourcesFrom_lists_loadable other.proper other.ordered hroot hstart'
      have heq : entries' = entries := by
        apply eq_of_pairwise_isBefore Prod.fst hsorted' hsorted
        rintro ⟨path, content⟩
        rw [hmem', hsame]
      rw [hload, load_eq_ofEntries hroot hwalk', heq]

def unreadableTree (vendored : FileTree) : FileTree :=
  .directory [("p", .directory [
    ("one.rs", .file "fn".toUTF8), ("two.rs", .file ⟨#[0xff]⟩), ("vendor", vendored)])]

def unreadableSystem : SortedFileSystem :=
  ⟨⟨unreadableTree .emptyDirectory, by decide⟩, by decide⟩

def unreadableVendor : SortedFileSystem :=
  ⟨⟨unreadableTree (.directory [("a.rs", .file ⟨#[0xff]⟩)]), by decide⟩, by decide⟩

theorem load_result_sample
    : (∃ start, WalkStart.find unreadableSystem.tree ⟨"/p"⟩ = .ok start)
        ∧ PathSet.has .empty ⟨"/p"⟩ = false
        ∧ load unreadableSystem.tree ⟨"/p"⟩ .empty = .error (.io ⟨"/p/two.rs"⟩ .notText)
        ∧ FirstUnreadable (IsLoadable unreadableSystem.tree ⟨"/p"⟩ .empty) ⟨"/p/two.rs"⟩
        ∧ load unreadableVendor.tree ⟨"/p"⟩ .empty = .error (.io ⟨"/p/two.rs"⟩ .notText) := by
  have hload : load unreadableSystem.tree ⟨"/p"⟩ .empty = .error (.io ⟨"/p/two.rs"⟩ .notText) := by
    rfl
  obtain ⟨_, hlaw⟩ := load_result unreadableSystem ⟨"/p"⟩ .empty ⟨_, rfl⟩
  obtain ⟨⟨entries, hwalk, hmem, _⟩, hio, _, _, _, hsame⟩ := hlaw rfl
  obtain ⟨_, hlaw'⟩ := load_result unreadableVendor ⟨"/p"⟩ .empty ⟨_, rfl⟩
  obtain ⟨⟨entries', hwalk', hmem', _⟩, _⟩ := hlaw' rfl
  refine ⟨⟨_, rfl⟩, rfl, hload, ((hio _ _).1 hload).2, ?_⟩
  rw [hsame unreadableVendor ⟨_, rfl⟩, hload]
  intro path content
  -- both walks come to the same files
  have heq : entries' = entries := Except.ok.inj (hwalk'.symm.trans hwalk)
  rw [← hmem, ← hmem', heq]

def unlistedSystem : SortedFileSystem :=
  ⟨⟨.directory [("link.rs", .link "p/one"), ("p", .directory [("one", .file .empty),
    (.ofList [0xff] ++ ".rs", .file .empty)])], by decide⟩, by decide⟩

theorem load_misses_sources
    : (∃ name : RawText, unlistedSystem.tree.IsRegularBelow ⟨"/p"⟩ (Path.extend ⟨"/p"⟩ [name])
        ∧ IsKept .empty ⟨"/p"⟩ [name]
        ∧ Text.bytes ".rs" <:+ name.toList ∧ Text.bytes ".rs" ≠ name.toList
        ∧ (∀ suffix ∈ testSuffixes, ¬ Text.bytes suffix <:+ name.toList)
        ∧ load unlistedSystem.tree ⟨"/p"⟩ .empty = .ok ⟨⟨"/p"⟩, .empty⟩)
      ∧ ∃ content, unlistedSystem.tree.resolve true ⟨"/link.rs"⟩ = .ok (.file content)
        ∧ isSourcePath ⟨"/link.rs"⟩ = true
        ∧ load unlistedSystem.tree ⟨"/link.rs"⟩ .empty = .ok ⟨⟨"/link.rs"⟩, .empty⟩ := by
  constructor
  . refine ⟨.ofList [0xff] ++ ".rs", ⟨.empty, ?_⟩, ?_, ?_, ?_, ?_, rfl⟩
    . exact ⟨_, [.ofList [0xff] ++ ".rs"], rfl, by simp, rfl, by decide⟩
    . rw [isKept_cons_iff, isKept_nil_iff]
      exact ⟨rfl, by decide, by simp, rfl⟩
    . exact ⟨[0xff], rfl⟩
    . decide
    . decide
  . exact ⟨.empty, rfl, by decide, rfl⟩

end Sources

end PatternLint
