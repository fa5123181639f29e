import Mathlib.Data.List.Basic
import PatternLint.Proofs.SortedMap
import PatternLint.Source.Load

/-!
This module contains the law of loading: it succeeds exactly if every file that the walk comes to is
a text that can be parsed, and then each of these files is found at its path.
-/

namespace PatternLint

def ParsedFile.ofContent? (entry : Path × ByteArray) : Option ParsedFile :=
  (FileTree.decode entry.2).toOption.bind fun text => (ParsedFile.ofText entry.1 text).toOption

theorem ParsedFile.path_of_ofText {path : Path} {text : String} {file : ParsedFile}
    (h : ParsedFile.ofText path text = .ok file) : file.path = path := by
  unfold ParsedFile.ofText at h
  split at h
  . cases h
    rfl
  . contradiction

theorem ParsedFile.path_of_ofContent? {entry : Path × ByteArray} {file : ParsedFile}
    (h : ParsedFile.ofContent? entry = some file) : file.path = entry.1 := by
  unfold ParsedFile.ofContent? at h
  rw [Option.bind_eq_some_iff] at h
  obtain ⟨text, _, htext⟩ := h
  cases hfile : ParsedFile.ofText entry.1 text with
  | error e =>
    rw [hfile] at htext
    contradiction
  | ok other =>
    rw [hfile] at htext
    cases htext
    exact ParsedFile.path_of_ofText hfile

namespace Sources

def text? (entry : Path × ByteArray) : Option (Path × String) :=
  (FileTree.decode entry.2).toOption.map fun text => (entry.1, text)

def parsed? (entry : Path × String) : Option ParsedFile :=
  (ParsedFile.ofText entry.1 entry.2).toOption

theorem readAll_eq_ok_iff {entries : List (Path × ByteArray)} {texts : List (Path × String)}
    : readAll entries = .ok texts
        ↔
      (∀ entry ∈ entries, (text? entry).isSome) ∧ texts = entries.filterMap text? := by
  induction entries generalizing texts with
  | nil =>
    rw [readAll]
    constructor
    . intro h
      cases h
      exact ⟨by simp, rfl⟩
    . rintro ⟨_, rfl⟩
      rfl
  | cons entry entries ih =>
    obtain ⟨path, content⟩ := entry
    rw [readAll]
    cases hdecode : FileTree.decode content with
    | error e => simp [text?, hdecode, Except.toOption]
    | ok text =>
      have htext : text? (path, content) = some (path, text) := by
        simp [text?, hdecode, Except.toOption]
      rw [List.filterMap_cons_some htext, List.forall_mem_cons, htext]
      cases hrest : readAll entries with
      | error e =>
        -- the first file that is no text stands further back
        have hnot : ¬ ∀ entry ∈ entries, (text? entry).isSome = true := by
          intro hall
          have := ih.2 ⟨hall, rfl⟩
          rw [hrest] at this
          contradiction
        simp only [Except.map, Option.isSome_some, true_and, hnot, false_and, reduceCtorEq]
      | ok others =>
        obtain ⟨hall, rfl⟩ := ih.1 hrest
        constructor
        . intro h
          cases h
          exact ⟨⟨rfl, hall⟩, rfl⟩
        . rintro ⟨_, rfl⟩
          rfl

theorem parseAll_cons (entry : Path × String) (texts : List (Path × String))
    : parseAll (entry :: texts)
        =
      match ParsedFile.ofText entry.1 entry.2 with
      | .error failure => (failure :: (parseAll texts).1, (parseAll texts).2)
      | .ok file => ((parseAll texts).1, file :: (parseAll texts).2) := by
  rfl

theorem parseAll_eq_iff {texts : List (Path × String)} {files : List ParsedFile}
    : parseAll texts = ([], files)
        ↔
      (∀ text ∈ texts, (parsed? text).isSome) ∧ files = texts.filterMap parsed? := by
  induction texts generalizing files with
  | nil =>
    constructor
    . intro h
      cases h
      exact ⟨by simp, rfl⟩
    . rintro ⟨_, rfl⟩
      rfl
  | cons text texts ih =>
    rw [parseAll_cons, List.forall_mem_cons, List.filterMap_cons]
    unfold parsed? at ih ⊢
    cases ParsedFile.ofText text.1 text.2 with
    | error e => simp [Except.toOption]
    | ok file =>
      simp only [Except.toOption, Option.isSome_some, true_and]
      constructor
      . intro h
        injection h with hnone hfiles
        obtain ⟨hall, hrest⟩ := ih.1 (Prod.ext hnone rfl)
        refine ⟨hall, ?_⟩
        rw [← hfiles]
        exact congrArg (file :: ·) hrest
      . rintro ⟨hall, rfl⟩
        rw [ih.2 ⟨hall, rfl⟩]
        rfl

def Parses (entries : List (Path × ByteArray)) : Prop :=
  ∀ entry ∈ entries, (ParsedFile.ofContent? entry).isSome

def ofWalk (root : Path) (entries : List (Path × ByteArray)) : Sources :=
  ofFiles root (entries.filterMap ParsedFile.ofContent?)

def walkOf (tree : FileTree) (root : Path) (ignored : PathSet) :
    Except LoadError (List (Path × ByteArray)) :=
  if ignored.has root then .ok [] else sourcesFrom tree root ignored

theorem ofContent?_eq_bind (entry : Path × ByteArray)
    : ParsedFile.ofContent? entry = (text? entry).bind parsed? := by
  unfold ParsedFile.ofContent? text? parsed?
  cases FileTree.decode entry.2 <;> rfl

theorem parses_iff {entries : List (Path × ByteArray)}
    : Parses entries
        ↔
      (∀ entry ∈ entries, (text? entry).isSome)
        ∧ ∀ text ∈ entries.filterMap text?, (parsed? text).isSome := by
  unfold Parses
  constructor
  . intro h
    constructor
    . intro entry hentry
      have := h entry hentry
      rw [ofContent?_eq_bind, Option.isSome_bind, Option.any_eq_true] at this
      obtain ⟨text, htext, _⟩ := this
      rw [htext]
      rfl
    . intro text hmem
      obtain ⟨entry, hentry, htext⟩ := List.mem_filterMap.1 hmem
      have := h entry hentry
      rw [ofContent?_eq_bind, htext, Option.bind_some] at this
      exact this
  . rintro ⟨htext, hparsed⟩ entry hentry
    obtain ⟨text, h⟩ := Option.isSome_iff_exists.1 (htext entry hentry)
    rw [ofContent?_eq_bind, h, Option.bind_some]
    exact hparsed text (List.mem_filterMap.2 ⟨entry, hentry, h⟩)

theorem readAll_parseAll_iff {entries : List (Path × ByteArray)} {files : List ParsedFile}
    : (∃ texts, readAll entries = .ok texts ∧ parseAll texts = ([], files))
        ↔
      Parses entries ∧ files = entries.filterMap ParsedFile.ofContent? := by
  have hfiles : entries.filterMap ParsedFile.ofContent?
      = (entries.filterMap text?).filterMap parsed? := by
    rw [List.filterMap_filterMap]
    apply List.filterMap_congr
    intro entry _
    apply ofContent?_eq_bind
  rw [parses_iff, hfiles]
  constructor
  . rintro ⟨texts, hread, hparse⟩
    obtain ⟨htexts, rfl⟩ := readAll_eq_ok_iff.1 hread
    obtain ⟨hparsed, rfl⟩ := parseAll_eq_iff.1 hparse
    exact ⟨⟨htexts, hparsed⟩, rfl⟩
  . rintro ⟨⟨htexts, hparsed⟩, rfl⟩
    refine ⟨_, readAll_eq_ok_iff.2 ⟨htexts, rfl⟩, ?_⟩
    exact parseAll_eq_iff.2 ⟨hparsed, rfl⟩

theorem load_eq_ok_iff_walk {tree : FileTree} {root : Path} {ignored : PathSet} {sources : Sources}
    (hroot : ignored.has root = false)
    : load tree root ignored = .ok sources
        ↔
      ∃ entries, sourcesFrom tree root ignored = .ok entries
        ∧ ∃ files, (∃ texts, readAll entries = .ok texts ∧ parseAll texts = ([], files))
          ∧ sources = ofFiles root files := by
  unfold load
  rw [hroot, if_neg (by simp)]
  cases sourcesFrom tree root ignored with
  | error e => simp [bind, Except.bind]
  | ok entries =>
    cases htexts : readAll entries with
    | error e => simp [bind, Except.bind, htexts]
    | ok texts =>
      simp only [bind, Except.bind, htexts, Except.ok.injEq, exists_eq_left']
      split
      . next files hparse =>
        constructor
        . intro h
          cases h
          exact ⟨files, hparse, rfl⟩
        . rintro ⟨other, hother, rfl⟩
          rw [hparse] at hother
          cases hother
          rfl
      . next hne hparse =>
        constructor
        . intro h
          contradiction
        . rintro ⟨files, hfiles, _⟩
          rw [hfiles] at hparse
          cases hparse
          exact absurd rfl hne

theorem load_eq_ok_iff {tree : FileTree} {root : Path} {ignored : PathSet} {sources : Sources}
    : load tree root ignored = .ok sources
        ↔
      ∃ entries, walkOf tree root ignored = .ok entries ∧ Parses entries
        ∧ sources = ofWalk root entries := by
  unfold walkOf
  cases hroot : ignored.has root with
  | true =>
    unfold load
    rw [hroot, if_pos rfl, if_pos rfl]
    constructor
    . intro h
      cases h
      exact ⟨[], rfl, by simp [Parses], rfl⟩
    . rintro ⟨entries, hwalk, _, rfl⟩
      cases hwalk
      rfl
  | false =>
    rw [load_eq_ok_iff_walk hroot, if_neg (by simp)]
    simp only [readAll_parseAll_iff]
    constructor
    . rintro ⟨entries, hwalk, files, ⟨hparses, rfl⟩, rfl⟩
      exact ⟨entries, hwalk, hparses, rfl⟩
    . rintro ⟨entries, hwalk, hparses, rfl⟩
      exact ⟨entries, hwalk, _, ⟨hparses, rfl⟩, rfl⟩

section Find

variable {root : Path} {entries : List (Path × ByteArray)}

theorem map_path_ofContent? (h : Parses entries)
    : (entries.filterMap ParsedFile.ofContent?).map ParsedFile.path = entries.map Prod.fst := by
  induction entries with
  | nil => rfl
  | cons entry entries ih =>
    unfold Parses at h
    rw [List.forall_mem_cons] at h
    obtain ⟨file, hfile⟩ := Option.isSome_iff_exists.1 h.1
    rw [List.filterMap_cons_some hfile, List.map_cons, List.map_cons, ih h.2,
      ParsedFile.path_of_ofContent? hfile]

theorem find?_ofWalk_eq_some_iff (h : Parses entries)
    (hnodup : (entries.map fun entry => entry.1.components).Nodup) {key : List Path.Component}
    {file : ParsedFile}
    : (ofWalk root entries).files.find? key = some file
        ↔
      ∃ entry ∈ entries, ParsedFile.ofContent? entry = some file ∧ entry.1.components = key := by
  have hkeys : ((entries.filterMap ParsedFile.ofContent?).map fun file => file.path.components).Nodup
      := by
    have := congrArg (List.map Path.components) (map_path_ofContent? h)
    rw [List.map_map, List.map_map] at this
    unfold Function.comp at this
    rw [this]
    exact hnodup
  unfold ofWalk ofFiles
  dsimp
  rw [SortedMap.find?_foldl_insert (fun file : ParsedFile => file.path.components) hkeys,
    SortedMap.find?_empty, Option.or_none]
  constructor
  . intro hfind
    have hkey := List.find?_some hfind
    rw [beq_iff_eq] at hkey
    obtain ⟨entry, hentry, hfile⟩ := List.mem_filterMap.1 (List.mem_of_find?_eq_some hfind)
    refine ⟨entry, hentry, hfile, ?_⟩
    rw [← ParsedFile.path_of_ofContent? hfile]
    exact Std.LawfulEqCmp.eq_of_compare hkey
  . rintro ⟨entry, hentry, hfile, rfl⟩
    rw [← ParsedFile.path_of_ofContent? hfile]
    have hmem : file ∈ entries.filterMap ParsedFile.ofContent? :=
      List.mem_filterMap.2 ⟨entry, hentry, hfile⟩
    exact SortedMap.find?_eq_some_of_nodup _ hkeys hmem

theorem path_of_file? (h : Parses entries)
    (hnodup : (entries.map fun entry => entry.1.components).Nodup) {path : Path} {file : ParsedFile}
    (hfile : (ofWalk root entries).file? path = some file)
    : file.path.components = path.components := by
  obtain ⟨entry, _, hparsed, hkey⟩ := (find?_ofWalk_eq_some_iff h hnodup).1 hfile
  rw [ParsedFile.path_of_ofContent? hparsed]
  exact hkey

theorem contains_ofWalk_iff (h : Parses entries)
    (hnodup : (entries.map fun entry => entry.1.components).Nodup) {key : List Path.Component}
    : (ofWalk root entries).files.contains key = true
        ↔
      ∃ entry ∈ entries, entry.1.components = key := by
  unfold SortedMap.contains
  rw [Option.isSome_iff_exists]
  simp only [find?_ofWalk_eq_some_iff h hnodup]
  constructor
  . rintro ⟨_, entry, hentry, _, hkey⟩
    exact ⟨entry, hentry, hkey⟩
  . rintro ⟨entry, hentry, hkey⟩
    obtain ⟨file, hfile⟩ := Option.isSome_iff_exists.1 (h entry hentry)
    exact ⟨file, entry, hentry, hfile, hkey⟩

end Find

end Sources

end PatternLint
