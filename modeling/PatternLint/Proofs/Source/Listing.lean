import Mathlib.Data.List.Nodup
import PatternLint.Proofs.Path
import PatternLint.Source.Provider

/-!
This module contains the laws of listings that are trees: the entries of each directory are its
distinct children. Every file of such a listing stands below its directory, and has a path of its
own.
-/

namespace PatternLint

def Path.IsChildOf (p directory : Path) : Prop :=
  ∃ name, p.components = directory.components ++ [.normal name]

def ListedEntry.path : ListedEntry → Path
  | file path => path
  | directory path _ => path

namespace Listing

mutual

def files : Listing → List Path
  | .failed _ => []
  | .entries children => filesOfEntries children

def filesOfEntries : List ListedEntry → List Path
  | [] => []
  | entry :: rest => filesOfEntry entry ++ filesOfEntries rest

def filesOfEntry : ListedEntry → List Path
  | .file path => [path]
  | .directory _ listing => files listing

end

mutual

/-- A listing is a tree: every directory is listed, and its entries are its distinct children. -/
def IsTreeAt (directory : Path) : Listing → Prop
  | .failed _ => False
  | .entries children =>
    (children.map fun entry => entry.path.components).Nodup ∧ AreEntriesAt directory children

def AreEntriesAt (directory : Path) : List ListedEntry → Prop
  | [] => True
  | entry :: rest => IsEntryAt directory entry ∧ AreEntriesAt directory rest

def IsEntryAt (directory : Path) : ListedEntry → Prop
  | .file path => path.IsChildOf directory
  | .directory path listing => path.IsChildOf directory ∧ IsTreeAt path listing

end

theorem isChildOf_of_isEntryAt {directory : Path} {entry : ListedEntry}
    (h : IsEntryAt directory entry) : entry.path.IsChildOf directory := by
  cases entry with
  | file path => exact h
  | directory path listing => exact h.1

theorem isEntryAt_of_mem {directory : Path} {entries : List ListedEntry} {entry : ListedEntry}
    (h : AreEntriesAt directory entries) (hmem : entry ∈ entries) : IsEntryAt directory entry := by
  induction entries with
  | nil => contradiction
  | cons first rest ih =>
    rcases List.mem_cons.1 hmem with rfl | hmem
    . exact h.1
    . exact ih h.2 hmem

mutual

theorem isPrefix_of_mem_files {directory file : Path} {listing : Listing}
    (h : IsTreeAt directory listing) (hmem : file ∈ files listing)
    : ∃ name names, file.components = directory.components ++ .normal name :: names := by
  cases listing with
  | failed e => contradiction
  | entries children =>
    obtain ⟨entry, hentry, hbelow⟩ := isPrefix_of_mem_filesOfEntries h.2 hmem
    obtain ⟨name, hname⟩ := isChildOf_of_isEntryAt (isEntryAt_of_mem h.2 hentry)
    obtain ⟨names, hnames⟩ := hbelow
    refine ⟨name, names, ?_⟩
    rw [← hnames, hname, List.append_assoc]
    rfl

theorem isPrefix_of_mem_filesOfEntries {directory file : Path} {entries : List ListedEntry}
    (h : AreEntriesAt directory entries) (hmem : file ∈ filesOfEntries entries)
    : ∃ entry ∈ entries, entry.path.components <+: file.components := by
  cases entries with
  | nil => contradiction
  | cons entry rest =>
    rw [filesOfEntries, List.mem_append] at hmem
    rcases hmem with hmem | hmem
    . exact ⟨entry, List.mem_cons_self, isPrefix_of_mem_filesOfEntry h.1 hmem⟩
    . obtain ⟨other, hother, hbelow⟩ := isPrefix_of_mem_filesOfEntries h.2 hmem
      exact ⟨other, List.mem_cons_of_mem _ hother, hbelow⟩

theorem isPrefix_of_mem_filesOfEntry {directory file : Path} {entry : ListedEntry}
    (h : IsEntryAt directory entry) (hmem : file ∈ filesOfEntry entry)
    : entry.path.components <+: file.components := by
  cases entry with
  | file path =>
    rw [filesOfEntry, List.mem_singleton] at hmem
    rw [hmem]
    exact List.prefix_refl _
  | directory path listing =>
    obtain ⟨name, names, hfile⟩ := isPrefix_of_mem_files h.2 hmem
    rw [hfile]
    apply List.prefix_append

end

theorem components_eq_of_isChildOf {directory p q : Path} {components : List Path.Component}
    (hp : p.IsChildOf directory) (hq : q.IsChildOf directory) (hbelow : p.components <+: components)
    (hbelow' : q.components <+: components) : p.components = q.components := by
  obtain ⟨name, hname⟩ := hp
  obtain ⟨other, hother⟩ := hq
  have hle : p.components.length ≤ q.components.length := by
    rw [hname, hother]
    simp
  have hpre := List.prefix_of_prefix_length_le hbelow hbelow' hle
  apply hpre.eq_of_length
  rw [hname, hother]
  simp

mutual

theorem nodup_files {directory : Path} {listing : Listing} (h : IsTreeAt directory listing)
    : ((files listing).map Path.components).Nodup := by
  cases listing with
  | failed e => contradiction
  | entries children => exact nodup_filesOfEntries h.1 h.2

theorem nodup_filesOfEntries {directory : Path} {entries : List ListedEntry}
    (hnodup : (entries.map fun entry => entry.path.components).Nodup)
    (h : AreEntriesAt directory entries)
    : ((filesOfEntries entries).map Path.components).Nodup := by
  cases entries with
  | nil => exact .nil
  | cons entry rest =>
    rw [List.map_cons, List.nodup_cons] at hnodup
    rw [filesOfEntries, List.map_append, List.nodup_append]
    refine ⟨nodup_filesOfEntry h.1, nodup_filesOfEntries hnodup.2 h.2, ?_⟩
    intro components hfirst other hrest heq
    subst heq
    rw [List.mem_map] at hfirst hrest
    obtain ⟨file, hfile, rfl⟩ := hfirst
    obtain ⟨other, hother, hsame⟩ := hrest
    -- both files stand below an entry, and it is not the same one
    obtain ⟨second, hsecond, hbelow⟩ := isPrefix_of_mem_filesOfEntries h.2 hother
    rw [hsame] at hbelow
    apply hnodup.1
    rw [List.mem_map]
    refine ⟨second, hsecond, ?_⟩
    have hchild := isChildOf_of_isEntryAt h.1
    have hother := isChildOf_of_isEntryAt (isEntryAt_of_mem h.2 hsecond)
    apply components_eq_of_isChildOf hother hchild hbelow
    exact isPrefix_of_mem_filesOfEntry h.1 hfile

theorem nodup_filesOfEntry {directory : Path} {entry : ListedEntry} (h : IsEntryAt directory entry)
    : ((filesOfEntry entry).map Path.components).Nodup := by
  cases entry with
  | file path => exact List.nodup_singleton _
  | directory path listing => exact nodup_files h.2

end

end Listing

end PatternLint
