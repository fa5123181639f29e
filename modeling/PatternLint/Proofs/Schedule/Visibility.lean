import PatternLint.Proofs.Schedule.Plan
import PatternLint.Proofs.Source.Listing
import PatternLint.Proofs.Source.Name

/-!
This module contains what a walk sees of a project. A walk over a tree takes exactly the source files
that nothing keeps it from, and its plan has each of them once, with the checkers in force for it.
-/

namespace PatternLint

variable {U P : Type}

namespace Policy

def inForce (policy : Policy P) (file : Path) : CheckerSet P :=
  match policy.overrideFor? file with
  | some set => set
  | none => file.parent?.elim policy.global policy.checkersFor

structure Reaches (policy : Policy P) (directory file : Path) : Prop where
  kept : ∀ q : Path, directory.components <+: q.components → q.components <+: file.components →
    q.components ≠ directory.components → policy.isIgnored q = false
  shown : ∀ name, .normal name ∈ file.components.drop directory.components.length →
    ¬ name.IsHiddenText
  unvendored : .normal vendorName ∉ (file.components.drop directory.components.length).dropLast

theorem isIgnored_congr (policy : Policy P) {p q : Path} (h : p.components = q.components)
    : policy.isIgnored p = policy.isIgnored q := by
  unfold isIgnored PathSet.has
  rw [h]

theorem overrideFor?_congr (policy : Policy P) {p q : Path} (h : p.components = q.components)
    : policy.overrideFor? p = policy.overrideFor? q := by
  unfold overrideFor?
  rw [h]

theorem checkersFor_congr (policy : Policy P) {p q : Path} (h : p.components = q.components)
    : policy.checkersFor p = policy.checkersFor q := by
  unfold checkersFor
  rw [policy.overrideFor?_congr h]

theorem reaches_of_components_eq {policy : Policy P} {directory file : Path}
    (h : file.components = directory.components) : policy.Reaches directory file := by
  refine ⟨?_, ?_, ?_⟩
  . intro q hbelow habove hne
    rw [h] at habove
    exact absurd (habove.eq_of_length_le hbelow.length_le) hne
  . intro name hname
    simp [h] at hname
  . simp [h]

section Child

variable {policy : Policy P} {directory child file : Path} {name : RawText}
variable {names : List Path.Component}

theorem isPrefix_of_child (hchild : child.components = directory.components ++ [.normal name])
    (hfile : file.components = directory.components ++ .normal name :: names)
    : child.components <+: file.components := by
  rw [hchild, hfile]
  exact ⟨names, by simp⟩

theorem drop_directory (hfile : file.components = directory.components ++ .normal name :: names)
    : file.components.drop directory.components.length = .normal name :: names := by
  rw [hfile, List.drop_left]

theorem drop_child (hchild : child.components = directory.components ++ [.normal name])
    (hfile : file.components = directory.components ++ .normal name :: names)
    : file.components.drop child.components.length = names := by
  rw [hfile, List.append_cons, ← hchild, List.drop_left]

theorem Reaches.pass (h : policy.Reaches directory file)
    (hchild : child.components = directory.components ++ [.normal name])
    (hfile : file.components = directory.components ++ .normal name :: names)
    : policy.isIgnored child = false ∧ ¬ name.IsHiddenText
        ∧ (names ≠ [] → name ≠ vendorName) := by
  refine ⟨?_, ?_, ?_⟩
  . apply h.kept _ _ (isPrefix_of_child hchild hfile)
    . simp [hchild]
    . simp [hchild]
  . apply h.shown
    simp [drop_directory hfile]
  . intro hnames heq
    apply h.unvendored
    rw [drop_directory hfile, List.dropLast_cons_of_ne_nil hnames, heq]
    simp

theorem Reaches.below (h : policy.Reaches directory file)
    (hchild : child.components = directory.components ++ [.normal name])
    (hfile : file.components = directory.components ++ .normal name :: names)
    : policy.Reaches child file := by
  have hdrop := drop_directory hfile
  have hdrop' := drop_child hchild hfile
  refine ⟨?_, ?_, ?_⟩
  . intro q hq habove _
    rw [hchild] at hq
    apply h.kept q (.trans (List.prefix_append _ _) hq) habove
    intro heq
    rw [heq] at hq
    have := hq.length_le
    simp only [List.length_append, List.length_singleton] at this
    omega
  . intro other hother
    apply h.shown
    rw [hdrop]
    rw [hdrop'] at hother
    exact List.mem_cons_of_mem _ hother
  . intro hvendor
    apply h.unvendored
    rw [hdrop]
    rw [hdrop'] at hvendor
    have hnames : names ≠ [] := by
      intro hnil
      simp [hnil] at hvendor
    rw [List.dropLast_cons_of_ne_nil hnames]
    exact List.mem_cons_of_mem _ hvendor

theorem reaches_of_child (hkept : policy.isIgnored child = false)
    (hshown : ¬ name.IsHiddenText) (hvendor : names ≠ [] → name ≠ vendorName)
    (h : policy.Reaches child file)
    (hchild : child.components = directory.components ++ [.normal name])
    (hfile : file.components = directory.components ++ .normal name :: names)
    : policy.Reaches directory file := by
  have hdrop := drop_directory hfile
  have hdrop' := drop_child hchild hfile
  refine ⟨?_, ?_, ?_⟩
  . intro q hq habove hne
    by_cases heq : q.components = child.components
    . rw [policy.isIgnored_congr heq]
      exact hkept
    . apply h.kept q _ habove heq
      apply List.prefix_of_prefix_length_le (isPrefix_of_child hchild hfile) habove
      rw [hchild, List.length_append, List.length_singleton]
      apply Nat.lt_of_le_of_ne hq.length_le
      intro hlength
      exact hne (hq.eq_of_length hlength).symm
  . intro other hother
    rw [hdrop, List.mem_cons] at hother
    rcases hother with hother | hother
    . injection hother with hother
      rw [hother]
      exact hshown
    . apply h.shown
      rw [hdrop']
      exact hother
  . intro hmem
    rw [hdrop] at hmem
    -- the child is on the way to the file only if something comes after it
    by_cases hnames : names = []
    . simp [hnames] at hmem
    . rw [List.dropLast_cons_of_ne_nil hnames, List.mem_cons] at hmem
      rcases hmem with hmem | hmem
      . injection hmem with hmem
        exact hvendor hnames hmem.symm
      . apply h.unvendored
        rw [hdrop']
        exact hmem

theorem reaches_iff (hchild : child.components = directory.components ++ [.normal name])
    (hfile : file.components = directory.components ++ .normal name :: names)
    : policy.Reaches directory file
        ↔
      policy.isIgnored child = false ∧ ¬ name.IsHiddenText
        ∧ (names ≠ [] → name ≠ vendorName) ∧ policy.Reaches child file := by
  constructor
  . intro h
    obtain ⟨hkept, hshown, hvendor⟩ := h.pass hchild hfile
    exact ⟨hkept, hshown, hvendor, h.below hchild hfile⟩
  . rintro ⟨hkept, hshown, hvendor, h⟩
    exact reaches_of_child hkept hshown hvendor h hchild hfile

end Child

theorem admits_iff {policy : Policy P} {isSource : Path → Bool} {path directory : Path} {name : RawText}
    (isDirectory : Bool) (h : path.components = directory.components ++ [.normal name])
    : policy.admits isSource ⟨path, isDirectory⟩ = true
        ↔
      policy.isIgnored path = false ∧ ¬ name.IsHiddenText
        ∧ if isDirectory then name ≠ vendorName else isSource path = true := by
  have hhidden : isHiddenName (name.text?.getD "") = false ↔ ¬ name.IsHiddenText := by
    rw [← Bool.not_eq_true, isHiddenName_text_iff]
  unfold admits
  rw [DirEntry.name_eq isDirectory h]
  cases isDirectory <;> simp [hhidden, text_eq_vendorName_iff, and_assoc]

theorem isSource_of_admits {policy : Policy P} {isSource : Path → Bool} {path : Path}
    {directory : Path} {name : RawText}
    (h : path.components = directory.components ++ [.normal name])
    : policy.admits isSource ⟨path, false⟩ = true
        ↔ isSource path = true ∧ policy.Reaches directory path := by
  have hself : policy.Reaches path path := reaches_of_components_eq rfl
  rw [reaches_iff h h, admits_iff false h]
  simp [hself, and_comm, and_left_comm]

theorem admits_directory_iff {policy : Policy P} {isSource : Path → Bool} {path directory file : Path}
    {name : RawText} {names : List Path.Component} (hne : names ≠ [])
    (h : path.components = directory.components ++ [.normal name])
    (hfile : file.components = directory.components ++ .normal name :: names)
    : policy.admits isSource ⟨path, true⟩ = true ∧ policy.Reaches path file
        ↔ policy.Reaches directory file := by
  rw [reaches_iff h hfile, admits_iff true h]
  simp [hne, and_assoc]

end Policy

namespace Plan

section Taken

variable (policy : Policy P) (isSource : Path → Bool)

mutual

def taken : Listing → List Path
  | .failed _ => []
  | .entries children => takenOfEntries children

def takenOfEntries : List ListedEntry → List Path
  | [] => []
  | entry :: entries => takenOfEntry entry ++ takenOfEntries entries

def takenOfEntry : ListedEntry → List Path
  | .file path => if policy.admits isSource ⟨path, false⟩ then [path] else []
  | .directory path listing => if policy.admits isSource ⟨path, true⟩ then taken listing else []

end

variable {policy isSource}

mutual

theorem taken_sublist (listing : Listing)
    : (taken policy isSource listing).Sublist listing.files := by
  cases listing with
  | failed e => exact List.Sublist.refl _
  | entries children => exact takenOfEntries_sublist children

theorem takenOfEntries_sublist (entries : List ListedEntry)
    : (takenOfEntries policy isSource entries).Sublist (Listing.filesOfEntries entries) := by
  cases entries with
  | nil => exact List.Sublist.refl _
  | cons entry entries =>
    exact List.Sublist.append (takenOfEntry_sublist entry) (takenOfEntries_sublist entries)

theorem takenOfEntry_sublist (entry : ListedEntry)
    : (takenOfEntry policy isSource entry).Sublist (Listing.filesOfEntry entry) := by
  cases entry with
  | file path =>
    rw [takenOfEntry]
    split
    . exact List.Sublist.refl _
    . exact List.nil_sublist _
  | directory path listing =>
    rw [takenOfEntry]
    split
    . exact taken_sublist listing
    . exact List.nil_sublist _

end

mutual

theorem mem_taken_iff {directory file : Path} {listing : Listing}
    (h : listing.IsTreeAt directory)
    : file ∈ taken policy isSource listing
        ↔
      file ∈ listing.files ∧ isSource file = true ∧ policy.Reaches directory file := by
  cases listing with
  | failed e => contradiction
  | entries children => exact mem_takenOfEntries_iff h.2

theorem mem_takenOfEntries_iff {directory file : Path} {entries : List ListedEntry}
    (h : Listing.AreEntriesAt directory entries)
    : file ∈ takenOfEntries policy isSource entries
        ↔
      file ∈ Listing.filesOfEntries entries ∧ isSource file = true
        ∧ policy.Reaches directory file := by
  cases entries with
  | nil => simp [takenOfEntries, Listing.filesOfEntries]
  | cons entry entries =>
    rw [takenOfEntries, Listing.filesOfEntries, List.mem_append, List.mem_append,
      mem_takenOfEntry_iff h.1, mem_takenOfEntries_iff h.2, or_and_right]

theorem mem_takenOfEntry_iff {directory file : Path} {entry : ListedEntry}
    (h : Listing.IsEntryAt directory entry)
    : file ∈ takenOfEntry policy isSource entry
        ↔
      file ∈ Listing.filesOfEntry entry ∧ isSource file = true
        ∧ policy.Reaches directory file := by
  cases entry with
  | file path =>
    obtain ⟨name, hname⟩ := h
    rw [takenOfEntry, Listing.filesOfEntry, List.mem_singleton]
    constructor
    . intro hmem
      split at hmem
      . next hadmits =>
        rw [List.mem_singleton.1 hmem]
        exact ⟨rfl, (Policy.isSource_of_admits hname).1 hadmits⟩
      . contradiction
    . rintro ⟨rfl, hsees⟩
      rw [if_pos ((Policy.isSource_of_admits hname).2 hsees)]
      exact List.mem_singleton_self _
  | directory path listing =>
    obtain ⟨⟨name, hname⟩, htree⟩ := h
    have hpath {file : Path} (hmem : file ∈ listing.files)
        : ∃ names, names ≠ [] ∧ file.components = directory.components ++ .normal name :: names := by
      obtain ⟨other, names, hfile⟩ := Listing.isPrefix_of_mem_files htree hmem
      refine ⟨.normal other :: names, by simp, ?_⟩
      rw [hfile, hname, List.append_assoc, List.singleton_append]
    rw [takenOfEntry, Listing.filesOfEntry]
    constructor
    . intro hmem
      split at hmem
      . next hadmits =>
        obtain ⟨hlisted, hsource, hreach⟩ := (mem_taken_iff htree).1 hmem
        obtain ⟨names, hne, hfile⟩ := hpath hlisted
        refine ⟨hlisted, hsource, ?_⟩
        exact (Policy.admits_directory_iff hne hname hfile).1 ⟨hadmits, hreach⟩
      . contradiction
    . rintro ⟨hlisted, hsource, hreach⟩
      obtain ⟨names, hne, hfile⟩ := hpath hlisted
      obtain ⟨hadmits, hreach⟩ := (Policy.admits_directory_iff hne hname hfile).2 hreach
      rw [if_pos hadmits]
      exact (mem_taken_iff htree).2 ⟨hlisted, hsource, hreach⟩

end

theorem files_append (plan others : Plan P)
    : Plan.files (plan ++ others) = plan.files ++ Plan.files others := by
  apply List.flatMap_append

theorem files_ofPlain (directory : Path) (plain : List Path)
    : (ofPlain policy directory plain).files = plain := by
  unfold ofPlain
  split
  . next h =>
    rw [List.isEmpty_iff.1 h]
    rfl
  . simp [Plan.files, UnitRequest.files]

variable (policy isSource)

mutual

theorem ofListing_perm_taken {directory : Path} {listing : Listing}
    (h : listing.IsTreeAt directory)
    : ∃ plan, ofListing policy isSource directory listing = .ok plan
        ∧ plan.files.Perm (taken policy isSource listing) := by
  cases listing with
  | failed e => contradiction
  | entries children =>
    obtain ⟨below, hbelow, hperm⟩ := ofEntries_perm_taken h.2
    refine ⟨_, ofListing_eq_ok_iff.2 ⟨below, hbelow, rfl⟩, ?_⟩
    rw [files_append, files_ofPlain]
    exact hperm

theorem ofEntries_perm_taken {directory : Path} {entries : List ListedEntry}
    (h : Listing.AreEntriesAt directory entries)
    : ∃ plan, ofEntries policy isSource entries = .ok plan
        ∧ (plan.files ++ plainFiles policy isSource entries).Perm
          (takenOfEntries policy isSource entries) := by
  cases entries with
  | nil => exact ⟨[], rfl, List.Perm.refl _⟩
  | cons entry entries =>
    obtain ⟨first, hfirst, hperm⟩ := ofEntry_perm_taken h.1
    obtain ⟨rest, hrest, hperm'⟩ := ofEntries_perm_taken h.2
    refine ⟨_, ofEntries_cons_eq_ok_iff.2 ⟨first, rest, hfirst, hrest, rfl⟩, ?_⟩
    rw [files_append, Schedule.plainFiles_cons, takenOfEntries]
    -- the files checked together come after those of the entries that follow
    apply List.Perm.trans _ (hperm.append hperm')
    rw [List.append_assoc, List.append_assoc]
    apply List.Perm.append_left
    rw [← List.append_assoc, ← List.append_assoc]
    apply List.Perm.append_right
    exact List.perm_append_comm

theorem ofEntry_perm_taken {directory : Path} {entry : ListedEntry}
    (h : Listing.IsEntryAt directory entry)
    : ∃ plan, ofEntry policy isSource entry = .ok plan
        ∧ (plan.files ++ plainFiles policy isSource [entry]).Perm
          (takenOfEntry policy isSource entry) := by
  cases entry with
  | file path =>
    rw [ofEntry, takenOfEntry, plainFiles]
    cases policy.admits isSource ⟨path, false⟩ with
    | false => exact ⟨[], rfl, List.Perm.refl _⟩
    | true =>
      cases hset : policy.overrideFor? path with
      | none => exact ⟨[], rfl, List.Perm.refl _⟩
      | some set => exact ⟨[(.file path, set)], rfl, List.Perm.refl _⟩
  | directory path listing =>
    rw [ofEntry, takenOfEntry, plainFiles]
    cases policy.admits isSource ⟨path, true⟩ with
    | false => exact ⟨[], rfl, List.Perm.refl _⟩
    | true =>
      obtain ⟨plan, hplan, hperm⟩ := ofListing_perm_taken h.2
      refine ⟨plan, hplan, ?_⟩
      simpa [plainFiles] using hperm

end

variable {policy isSource}

/--
A request is for some files, for those of a directory only if they are in it, and comes with the
checkers in force for each of them.
-/
structure IsFair (policy : Policy P) (planned : UnitRequest × CheckerSet P) : Prop where
  ne_nil : planned.1.files ≠ []
  inForce : ∀ file ∈ planned.1.files, policy.inForce file = planned.2
  children : ∀ directory files, planned.1 = .package directory files →
    ∀ file ∈ files, file.IsChildOf directory

mutual

theorem isFair_of_mem_ofListing {directory : Path} {listing : Listing} {plan : Plan P}
    (h : listing.IsTreeAt directory) (hplan : ofListing policy isSource directory listing = .ok plan)
    {planned : UnitRequest × CheckerSet P} (hmem : planned ∈ plan) : IsFair policy planned := by
  cases listing with
  | failed e => contradiction
  | entries children =>
    obtain ⟨below, hbelow, rfl⟩ := ofListing_eq_ok_iff.1 hplan
    rw [List.mem_append] at hmem
    rcases hmem with hmem | hmem
    . exact isFair_of_mem_ofEntries h.2 hbelow hmem
    . unfold ofPlain at hmem
      split at hmem
      . contradiction
      . next hne =>
        rw [List.mem_singleton.1 hmem]
        refine ⟨?_, ?_, ?_⟩
        . intro hnil
          exact hne (List.isEmpty_iff.2 hnil)
        . intro file hfile
          obtain ⟨hentry, _, hnone⟩ := mem_plainFiles_iff.1 hfile
          obtain ⟨name, hname⟩ := Listing.isEntryAt_of_mem h.2 hentry
          obtain ⟨parent, hparent, hsame⟩ := Path.components_parent? hname
          unfold Policy.inForce
          rw [hnone, hparent]
          exact policy.checkersFor_congr hsame
        . intro other files heq file hfile
          injection heq with hdirectory hfiles
          subst hdirectory hfiles
          exact Listing.isEntryAt_of_mem h.2 (mem_plainFiles_iff.1 hfile).1

theorem isFair_of_mem_ofEntries {directory : Path} {entries : List ListedEntry} {plan : Plan P}
    (h : Listing.AreEntriesAt directory entries)
    (hplan : ofEntries policy isSource entries = .ok plan)
    {planned : UnitRequest × CheckerSet P} (hmem : planned ∈ plan) : IsFair policy planned := by
  cases entries with
  | nil =>
    cases hplan
    contradiction
  | cons entry entries =>
    obtain ⟨first, rest, hfirst, hrest, rfl⟩ := ofEntries_cons_eq_ok_iff.1 hplan
    rw [List.mem_append] at hmem
    rcases hmem with hmem | hmem
    . exact isFair_of_mem_ofEntry h.1 hfirst hmem
    . exact isFair_of_mem_ofEntries h.2 hrest hmem

theorem isFair_of_mem_ofEntry {directory : Path} {entry : ListedEntry} {plan : Plan P}
    (h : Listing.IsEntryAt directory entry) (hplan : ofEntry policy isSource entry = .ok plan)
    {planned : UnitRequest × CheckerSet P} (hmem : planned ∈ plan) : IsFair policy planned := by
  cases entry with
  | file path =>
    rw [ofEntry] at hplan
    split at hplan
    . cases hplan
      cases hset : policy.overrideFor? path with
      | none => simp [hset] at hmem
      | some set =>
        rw [hset, Option.toList_some, List.map_singleton, List.mem_singleton] at hmem
        rw [hmem]
        refine ⟨by simp [UnitRequest.files], ?_, ?_⟩
        . intro file hfile
          rw [List.mem_singleton.1 hfile]
          unfold Policy.inForce
          rw [hset]
        . intro directory files heq
          contradiction
    . cases hplan
      contradiction
  | directory path listing =>
    rw [ofEntry] at hplan
    split at hplan
    . exact isFair_of_mem_ofListing h.2 hplan hmem
    . cases hplan
      contradiction

end

end Taken

end Plan

namespace Policy

def way (policy : Policy P) (file : Path) : List Path.Component :=
  file.components.drop policy.root.components.length

/--
A policy lets a walk over a project see a file: it is a listed source file, nothing on the way from
the root to it is ignored, no name on the way below the root is one that hides what is there, and no
directory on the way below the root holds the sources of others.
-/
structure Sees (policy : Policy P) (hides : RawText → Prop) (isSource : Path → Bool)
    (listing : Listing) (file : Path) : Prop where
  listed : file ∈ listing.files
  source : isSource file = true
  kept : ∀ q : Path, policy.root.components <+: q.components → q.components <+: file.components →
    policy.isIgnored q = false
  shown : ∀ name, .normal name ∈ policy.way file → ¬ hides name
  unvendored : .normal vendorName ∉ (policy.way file).dropLast

theorem sees_iff {policy : Policy P} {isSource : Path → Bool} {listing : Listing} {file : Path}
    (h : listing.IsTreeAt policy.root)
    : policy.Sees RawText.IsHiddenText isSource listing file
        ↔
      policy.isIgnored policy.root = false ∧ file ∈ Plan.taken policy isSource listing := by
  rw [Plan.mem_taken_iff h]
  constructor
  . rintro ⟨hlisted, hsource, hkept, hshown, hunvendored⟩
    obtain ⟨name, names, hfile⟩ := Listing.isPrefix_of_mem_files h hlisted
    refine ⟨?_, hlisted, hsource, ?_, hshown, hunvendored⟩
    . apply hkept _ (List.prefix_refl _)
      rw [hfile]
      apply List.prefix_append
    . intro q hbelow habove _
      exact hkept q hbelow habove
  . rintro ⟨hroot, hlisted, hsource, hkept, hshown, hunvendored⟩
    refine ⟨hlisted, hsource, ?_, hshown, hunvendored⟩
    intro q hbelow habove
    by_cases heq : q.components = policy.root.components
    . rw [policy.isIgnored_congr heq]
      exact hroot
    . exact hkept q hbelow habove heq

theorem sees_isHidden_iff {policy : Policy P} {isSource : Path → Bool} {listing : Listing} {file : Path}
    (h : ∀ name, .normal name ∈ policy.way file → ¬ name.IsHalfHidden)
    : policy.Sees RawText.IsHiddenText isSource listing file
        ↔ policy.Sees RawText.IsHidden isSource listing file := by
  have hshown : (∀ name, .normal name ∈ policy.way file → ¬ name.IsHiddenText)
      ↔ ∀ name, .normal name ∈ policy.way file → ¬ name.IsHidden := by
    apply forall₂_congr
    intro name hname
    rw [RawText.isHidden_iff, or_iff_left (h name hname)]
  constructor
  . rintro ⟨hlisted, hsource, hkept, hnames, hunvendored⟩
    exact ⟨hlisted, hsource, hkept, hshown.1 hnames, hunvendored⟩
  . rintro ⟨hlisted, hsource, hkept, hnames, hunvendored⟩
    exact ⟨hlisted, hsource, hkept, hshown.2 hnames, hunvendored⟩

end Policy

namespace Plan

structure Covers (policy : Policy P) (isSource : Path → Bool) (listing : Listing) (plan : Plan P) :
    Prop where
  mem_iff : ∀ file, file ∈ plan.files ↔ policy.Sees RawText.IsHiddenText isSource listing file
  nodup : (plan.files.map Path.components).Nodup
  fair : ∀ planned ∈ plan, IsFair policy planned

theorem ofProject_covers {policy : Policy P} (isSource : Path → Bool) {listing : Listing}
    (h : listing.IsTreeAt policy.root)
    : ∃ plan, ofProject policy isSource listing = .ok plan
        ∧ Covers policy isSource listing plan := by
  unfold ofProject
  by_cases hroot : policy.isIgnored policy.root = true
  . rw [if_pos hroot]
    refine ⟨[], rfl, ?_, List.nodup_nil, ?_⟩
    . intro file
      rw [Policy.sees_iff h, hroot]
      simp [Plan.files]
    . intro planned hmem
      contradiction
  . rw [if_neg hroot]
    obtain ⟨plan, hplan, hperm⟩ := ofListing_perm_taken policy isSource h
    refine ⟨plan, hplan, ?_, ?_, ?_⟩
    . intro file
      rw [Policy.sees_iff h, hperm.mem_iff]
      simp [hroot]
    . apply (hperm.map Path.components).nodup_iff.2
      apply List.Nodup.sublist ((taken_sublist listing).map _)
      exact Listing.nodup_files h
    . intro planned hmem
      exact isFair_of_mem_ofListing h hplan hmem

end Plan

end PatternLint
