import PatternLint.Proofs.Schedule.Visibility
import PatternLint.Proofs.Source.Ignoring

/-!
This module contains what one more path to leave out changes for the plan of a project: the requests
lose the files that the path covers, and those without other files are gone.
-/

namespace PatternLint

variable {P : Type}

def UnitRequest.without? (path : Path) : UnitRequest → Option UnitRequest
  | .file p => if path.covers p then none else some (.file p)
  | .package directory files =>
    let kept := files.filter fun p => !path.covers p
    if kept.isEmpty then none else some (.package directory kept)

namespace Plan

def without (path : Path) (plan : Plan P) : Plan P :=
  plan.filterMap fun planned => (planned.1.without? path).map fun request => (request, planned.2)

theorem without_append (path : Path) (plan others : Plan P)
    : (plan ++ others).without path = plan.without path ++ others.without path := by
  apply List.filterMap_append

theorem without_ofPlain (policy : Policy P) (path directory : Path) (plain : List Path)
    : (ofPlain policy directory plain).without path
        =
      ofPlain policy directory (plain.filter fun file => !path.covers file) := by
  unfold ofPlain without
  cases plain with
  | nil => rfl
  | cons file plain =>
    simp only [List.isEmpty_cons, Bool.false_eq_true, ↓reduceIte, List.filterMap_cons,
      List.filterMap_nil, UnitRequest.without?]
    split <;> simp_all

theorem without_eq_nil {path : Path} {plan : Plan P}
    (h : ∀ file ∈ plan.files, path.covers file = true) : plan.without path = [] := by
  unfold without
  rw [List.filterMap_eq_nil_iff]
  intro planned hmem
  have hcovers (file : Path) (hfile : file ∈ planned.1.files) : path.covers file = true :=
    h file (List.mem_flatMap.2 ⟨planned, hmem, hfile⟩)
  cases hrequest : planned.1 with
  | file file =>
    rw [hrequest] at hcovers
    simp [UnitRequest.without?, hcovers file (List.mem_singleton_self _)]
  | package directory files =>
    rw [hrequest] at hcovers
    have hnone : files.filter (fun file => !path.covers file) = [] := by
      rw [List.filter_eq_nil_iff]
      intro file hfile
      simp [hcovers file hfile]
    simp [UnitRequest.without?, hnone]

section Walk

variable {policy : Policy P} {isSource : Path → Bool} {more : PathSet} {path : Path}

theorem plainFiles_file (policy : Policy P) (isSource : Path → Bool) (p : Path)
    : plainFiles policy isSource [.file p]
        =
      if policy.admits isSource ⟨p, false⟩ && (policy.overrideFor? p).isNone then [p] else [] := by
  rfl

theorem plainFiles_directory (policy : Policy P) (isSource : Path → Bool) (p : Path)
    (listing : Listing) : plainFiles policy isSource [.directory p listing] = [] := by
  rfl

theorem overrideFor?_with (p : Path)
    : Policy.overrideFor? { policy with ignored := more } p = policy.overrideFor? p := by
  rfl

theorem admits_with (h : more.IsWith policy.ignored path) (e : DirEntry)
    : Policy.admits { policy with ignored := more } isSource e
        =
      (policy.admits isSource e && !path.isSame e.path) := by
  unfold Policy.admits Policy.isIgnored
  rw [h e.path, Bool.not_or]
  cases policy.ignored.has e.path <;> cases path.isSame e.path <;> simp

theorem covers_of_mem_ofListing {directory : Path} {listing : Listing}
    (htree : listing.IsTreeAt directory) {plan : Plan P}
    (hplan : ofListing policy isSource directory listing = .ok plan)
    : ∀ file ∈ plan.files, directory.covers file = true := by
  intro file hfile
  obtain ⟨other, hother, hperm⟩ := ofListing_perm_taken policy isSource htree
  rw [hplan] at hother
  cases hother
  have hlisted := (taken_sublist listing).subset (hperm.mem_iff.1 hfile)
  obtain ⟨name, names, hbelow⟩ := Listing.isPrefix_of_mem_files htree hlisted
  rw [Path.covers_iff, hbelow]
  apply List.prefix_append

mutual

theorem ofListing_with (h : more.IsWith policy.ignored path) {directory : Path} {listing : Listing}
    (htree : listing.IsTreeAt directory) (hout : path.covers directory = false)
    : ∃ plan, ofListing policy isSource directory listing = .ok plan
        ∧ ofListing { policy with ignored := more } isSource directory listing
          = .ok (plan.without path) := by
  cases listing with
  | failed e => contradiction
  | entries children =>
    obtain ⟨plan, hplan, hplan', hplain⟩ := ofEntries_with h htree.2 hout
    refine ⟨_, ofListing_eq_ok_iff.2 ⟨plan, hplan, rfl⟩, ?_⟩
    refine ofListing_eq_ok_iff.2 ⟨_, hplan', ?_⟩
    rw [without_append, without_ofPlain, hplain]
    rfl

theorem ofEntries_with (h : more.IsWith policy.ignored path) {directory : Path}
    {entries : List ListedEntry} (hentries : Listing.AreEntriesAt directory entries)
    (hout : path.covers directory = false)
    : ∃ plan, ofEntries policy isSource entries = .ok plan
        ∧ ofEntries { policy with ignored := more } isSource entries = .ok (plan.without path)
        ∧ plainFiles { policy with ignored := more } isSource entries
          = (plainFiles policy isSource entries).filter fun file => !path.covers file := by
  cases entries with
  | nil => exact ⟨[], rfl, rfl, rfl⟩
  | cons entry entries =>
    obtain ⟨first, hfirst, hfirst', hplain⟩ := ofEntry_with h hentries.1 hout
    obtain ⟨rest, hrest, hrest', hplains⟩ := ofEntries_with h hentries.2 hout
    refine ⟨_, ofEntries_cons_eq_ok_iff.2 ⟨first, rest, hfirst, hrest, rfl⟩, ?_, ?_⟩
    . refine ofEntries_cons_eq_ok_iff.2 ⟨_, _, hfirst', hrest', ?_⟩
      apply without_append
    . rw [Schedule.plainFiles_cons, Schedule.plainFiles_cons policy, hplain, hplains,
        List.filter_append]

theorem ofEntry_with (h : more.IsWith policy.ignored path) {directory : Path} {entry : ListedEntry}
    (hentry : Listing.IsEntryAt directory entry) (hout : path.covers directory = false)
    : ∃ plan, ofEntry policy isSource entry = .ok plan
        ∧ ofEntry { policy with ignored := more } isSource entry = .ok (plan.without path)
        ∧ plainFiles { policy with ignored := more } isSource [entry]
          = (plainFiles policy isSource [entry]).filter fun file => !path.covers file := by
  cases entry with
  | file p =>
    have hcovers := Path.covers_child hout hentry
    rw [ofEntry, ofEntry, plainFiles_file, plainFiles_file, admits_with h]
    simp only [overrideFor?_with]
    cases hadmits : policy.admits isSource ⟨p, false⟩ with
    | false => exact ⟨[], rfl, rfl, rfl⟩
    | true =>
      rw [Bool.true_and, ← hcovers]
      refine ⟨_, rfl, ?_⟩
      cases hset : policy.overrideFor? p <;> cases hkept : path.covers p <;>
        simp [without, UnitRequest.without?, hkept]
  | directory p listing =>
    have hcovers := Path.covers_child hout hentry.1
    rw [ofEntry, ofEntry, plainFiles_directory, plainFiles_directory, admits_with h]
    dsimp only
    cases hadmits : policy.admits isSource ⟨p, true⟩ with
    | false => exact ⟨[], rfl, rfl, rfl⟩
    | true =>
      rw [Bool.true_and, ← hcovers]
      cases hkept : path.covers p with
      | true =>
        -- everything below the directory is left out with it
        obtain ⟨plan, hplan, _⟩ := ofListing_perm_taken policy isSource hentry.2
        refine ⟨plan, hplan, ?_, rfl⟩
        rw [without_eq_nil]
        . rfl
        . intro file hfile
          have := covers_of_mem_ofListing hentry.2 hplan file hfile
          rw [Path.covers_iff] at this hkept ⊢
          exact hkept.trans this
      | false =>
        obtain ⟨plan, hplan, hplan'⟩ := ofListing_with h hentry.2 hkept
        exact ⟨plan, hplan, hplan', rfl⟩

end

theorem ofProject_with (isSource : Path → Bool) (h : more.IsWith policy.ignored path)
    (hbelow : policy.root.components <+: path.components) {listing : Listing}
    (htree : policy.isIgnored policy.root = false → listing.IsTreeAt policy.root)
    : ∃ plan, ofProject policy isSource listing = .ok plan
        ∧ ofProject { policy with ignored := more } isSource listing = .ok (plan.without path) := by
  unfold ofProject
  have hleft : Policy.isIgnored { policy with ignored := more } policy.root
      = (policy.isIgnored policy.root || path.isSame policy.root) := h policy.root
  dsimp only
  rw [hleft]
  cases hroot : policy.isIgnored policy.root with
  | true => exact ⟨[], rfl, rfl⟩
  | false =>
    have htree := htree hroot
    rw [Bool.false_or, if_neg (by simp)]
    cases hsame : path.isSame policy.root with
    | true =>
      obtain ⟨plan, hplan, _⟩ := ofListing_perm_taken policy isSource htree
      refine ⟨plan, hplan, ?_⟩
      rw [if_pos rfl, without_eq_nil]
      intro file hfile
      rw [Path.covers_iff, Path.isSame_iff.1 hsame, ← Path.covers_iff]
      exact covers_of_mem_ofListing htree hplan file hfile
    | false =>
      rw [if_neg (by simp)]
      exact ofListing_with h htree (Path.covers_eq_false_of_isPrefix hbelow hsame)

end Walk

end Plan

end PatternLint
