import Mathlib.Data.List.Basic
import PatternLint.Project
import PatternLint.Proofs.Except
import PatternLint.Proofs.Schedule.Coverage

/-!
This module contains the laws of what a walk over a project depends on: it fails with the error of the
first directory it comes to that cannot be listed, and apart from that reads nothing but the listings of
the directories it comes to and the units of the files listed there.
-/

namespace PatternLint

variable {U P : Type}

namespace Schedule

section Spec

variable (policy : Policy P) (provider : Provider U)

/--
The entries with the numbers of a route lead a walk from one directory down to another one. None of them
is left out.
-/
inductive LeadsTo : Path → Listing → List Nat → Path → Listing → Prop where
  | here (directory : Path) (listing : Listing) : LeadsTo directory listing [] directory listing
  | through {directory path other : Path} {children : List ListedEntry} {listing below : Listing}
      {i : Nat} {route : List Nat} (hlisted : children[i]? = some (.directory path listing))
      (hkept : skipReason? policy provider ⟨path, true⟩ = none)
      (hrest : LeadsTo path listing route other below)
      : LeadsTo directory (.entries children) (i :: route) other below

abbrev IsBefore (route other : List Nat) : Prop :=
  List.Lex (fun i j => i < j) route other

def FailsFirst (directory : Path) (listing : Listing) (e : LoadError) : Prop :=
  ∃ route other, LeadsTo policy provider directory listing route other (.failed e)
    ∧ ∀ route' other' e', LeadsTo policy provider directory listing route' other' (.failed e') →
      route' = route ∨ IsBefore route route'

structure AgreesBelow (other : Provider U) (start : Path) (listing listing' : Listing) : Prop where
  listings : ∀ route directory directory' below below',
    LeadsTo policy provider start listing route directory below →
      LeadsTo policy other start listing' route directory' below' → below'.here = below.here
  sources : ∀ route directory children,
    LeadsTo policy provider start listing route directory (.entries children) →
      ∀ path, .file path ∈ children → other.isSource path = provider.isSource path
  files : ∀ route directory children,
    LeadsTo policy provider start listing route directory (.entries children) →
      ∀ path, .file path ∈ children → other.fileUnit? path = provider.fileUnit? path
  packages : ∀ route directory children,
    LeadsTo policy provider start listing route directory (.entries children) →
      ∀ files : List Path, (∀ path ∈ files, .file path ∈ children) →
        other.packageUnit? directory files = provider.packageUnit? directory files

abbrev AgreesWith (other : Provider U) : Prop :=
  AgreesBelow policy provider other policy.root (provider.listing policy.root)
    (other.listing policy.root)

end Spec

variable {policy : Policy P} {provider : Provider U}

/-! ### Routes -/

theorem skipReason?_eq_none_iff {e : DirEntry}
    : skipReason? policy provider e = none ↔ policy.admits provider.isSource e = true := by
  rw [← Option.not_isSome_iff_eq_none, skipReason?_isSome]
  simp

theorem leadsTo_failed_iff {directory other : Path} {e : LoadError} {route : List Nat} {below : Listing}
    : LeadsTo policy provider directory (.failed e) route other below
        ↔ route = [] ∧ other = directory ∧ below = .failed e := by
  constructor
  . intro h
    cases h
    exact ⟨rfl, rfl, rfl⟩
  . rintro ⟨rfl, rfl, rfl⟩
    exact .here _ _

theorem leadsTo_entries_nil {directory other : Path} {children : List ListedEntry} {below : Listing}
    (h : LeadsTo policy provider directory (.entries children) [] other below)
    : other = directory ∧ below = .entries children := by
  cases h
  exact ⟨rfl, rfl⟩

theorem leadsTo_zero_iff {directory other : Path} {entry : ListedEntry} {entries : List ListedEntry}
    {route : List Nat} {below : Listing}
    : LeadsTo policy provider directory (.entries (entry :: entries)) (0 :: route) other below
        ↔ ∃ path listing, entry = .directory path listing
          ∧ skipReason? policy provider ⟨path, true⟩ = none
          ∧ LeadsTo policy provider path listing route other below := by
  constructor
  . intro h
    cases h with
    | through hlisted hkept hrest =>
      cases hlisted
      exact ⟨_, _, rfl, hkept, hrest⟩
  . rintro ⟨path, listing, rfl, hkept, hrest⟩
    exact .through rfl hkept hrest

theorem leadsTo_succ_iff {directory other : Path} {entry : ListedEntry} {entries : List ListedEntry}
    {i : Nat} {route : List Nat} {below : Listing}
    : LeadsTo policy provider directory (.entries (entry :: entries)) ((i + 1) :: route) other below
        ↔ LeadsTo policy provider directory (.entries entries) (i :: route) other below := by
  constructor
  . intro h
    cases h with
    | through hlisted hkept hrest => exact .through hlisted hkept hrest
  . intro h
    cases h with
    | through hlisted hkept hrest => exact .through hlisted hkept hrest

theorem LeadsTo.unique {directory other other' : Path} {listing below below' : Listing} {route : List Nat}
    (h : LeadsTo policy provider directory listing route other below)
    (h' : LeadsTo policy provider directory listing route other' below')
    : other' = other ∧ below' = below := by
  induction h with
  | here =>
    cases h'
    exact ⟨rfl, rfl⟩
  | through hlisted _ _ ih =>
    cases h' with
    | through hlisted' _ hrest' =>
      rw [hlisted] at hlisted'
      cases hlisted'
      exact ih hrest'

/-! ### The first failure -/

theorem FailsFirst.unique {directory : Path} {listing : Listing} {e e' : LoadError}
    (h : FailsFirst policy provider directory listing e)
    (h' : FailsFirst policy provider directory listing e') : e' = e := by
  obtain ⟨route, other, hfails, hfirst⟩ := h
  obtain ⟨route', other', hfails', hfirst'⟩ := h'
  have hsame : route' = route := by
    rcases hfirst _ _ _ hfails' with hsame | hbefore
    . exact hsame
    . rcases hfirst' _ _ _ hfails with hsame | hafter
      . exact hsame.symm
      . exact absurd hafter (List.lex_asymm (fun h h' => Nat.lt_asymm h h') hbefore)
  subst hsame
  have := (hfails.unique hfails').2
  injection this

theorem IsBefore.succ {i j : Nat} {route other : List Nat} (h : IsBefore (i :: route) (j :: other))
    : IsBefore ((i + 1) :: route) ((j + 1) :: other) := by
  cases h with
  | rel h => exact .rel (Nat.succ_lt_succ h)
  | cons h => exact .cons h

theorem exists_error_of_mem {isSource : Path → Bool} {entry : ListedEntry} {entries : List ListedEntry}
    {e : LoadError} (hmem : entry ∈ entries) (h : Plan.ofEntry policy isSource entry = .error e)
    : ∃ e', Plan.ofEntries policy isSource entries = .error e' := by
  induction entries with
  | nil => contradiction
  | cons first rest ih =>
    rw [Plan.ofEntries]
    rcases List.mem_cons.1 hmem with rfl | hmem
    . exact ⟨e, bind_eq_error_iff.2 (.inl h)⟩
    . obtain ⟨e', hrest⟩ := ih hmem
      cases hfirst : Plan.ofEntry policy isSource first with
      | error e'' => exact ⟨e'', bind_eq_error_iff.2 (.inl rfl)⟩
      | ok plan => exact ⟨e', bind_eq_error_iff.2 (.inr ⟨plan, rfl, bind_eq_error_iff.2 (.inl hrest)⟩)⟩

theorem LeadsTo.exists_error {directory other : Path} {listing : Listing} {route : List Nat} {e : LoadError}
    (h : LeadsTo policy provider directory listing route other (.failed e))
    : ∃ e', Plan.ofListing policy provider.isSource directory listing = .error e' := by
  generalize hfailed : Listing.failed e = below at h
  induction h with
  | here =>
    subst hfailed
    exact ⟨e, rfl⟩
  | @through directory path other children listing below i route hlisted hkept hrest ih =>
    obtain ⟨e', herror⟩ := ih hfailed
    have hentry : Plan.ofEntry policy provider.isSource (.directory path listing) = .error e' := by
      rw [Plan.ofEntry, if_pos (skipReason?_eq_none_iff.1 hkept)]
      exact herror
    obtain ⟨e'', hentries⟩ := exists_error_of_mem (List.mem_of_getElem? hlisted) hentry
    exact ⟨e'', bind_eq_error_iff.2 (.inl hentries)⟩

theorem FailsFirst.cons_here {directory path : Path} {listing : Listing} {entries : List ListedEntry}
    {e : LoadError} (hkept : skipReason? policy provider ⟨path, true⟩ = none)
    (h : FailsFirst policy provider path listing e)
    : FailsFirst policy provider directory (.entries (.directory path listing :: entries)) e := by
  obtain ⟨route, other, hfails, hfirst⟩ := h
  refine ⟨0 :: route, other, leadsTo_zero_iff.2 ⟨path, listing, rfl, hkept, hfails⟩, ?_⟩
  intro route' other' e' hfails'
  cases route' with
  | nil => cases (leadsTo_entries_nil hfails').2
  | cons i route' =>
    cases i with
    | zero =>
      obtain ⟨_, _, hentry, _, hrest⟩ := leadsTo_zero_iff.1 hfails'
      cases hentry
      exact (hfirst _ _ _ hrest).imp (congrArg _) .cons
    | succ i => exact .inr (.rel (Nat.succ_pos i))

theorem FailsFirst.cons_later {directory : Path} {entry : ListedEntry} {entries : List ListedEntry}
    {e : LoadError} {plan : Plan P} (hentry : Plan.ofEntry policy provider.isSource entry = .ok plan)
    (h : FailsFirst policy provider directory (.entries entries) e)
    : FailsFirst policy provider directory (.entries (entry :: entries)) e := by
  obtain ⟨route, other, hfails, hfirst⟩ := h
  cases route with
  | nil => cases (leadsTo_entries_nil hfails).2
  | cons i route =>
    refine ⟨(i + 1) :: route, other, leadsTo_succ_iff.2 hfails, ?_⟩
    intro route' other' e' hfails'
    cases route' with
    | nil => cases (leadsTo_entries_nil hfails').2
    | cons j route' =>
      cases j with
      | zero =>
        -- the entry before the others has a plan, so no listing below it fails
        obtain ⟨path, listing, rfl, hkept, hrest⟩ := leadsTo_zero_iff.1 hfails'
        obtain ⟨e'', herror⟩ := hrest.exists_error
        rw [Plan.ofEntry, if_pos (skipReason?_eq_none_iff.1 hkept), herror] at hentry
        contradiction
      | succ j =>
        rcases hfirst _ _ _ (leadsTo_succ_iff.1 hfails') with hsame | hbefore
        . injection hsame with hnumber hroute
          exact .inl (by rw [hnumber, hroute])
        . exact .inr hbefore.succ

mutual

theorem failsFirst_of_error (directory : Path) (listing : Listing) {e : LoadError}
    (h : Plan.ofListing policy provider.isSource directory listing = .error e)
    : FailsFirst policy provider directory listing e := by
  cases listing with
  | failed e' =>
    cases h
    refine ⟨[], directory, .here _ _, ?_⟩
    intro route' other' e' hfails'
    exact .inl (leadsTo_failed_iff.1 hfails').1
  | entries children =>
    rw [Plan.ofListing] at h
    rcases bind_eq_error_iff.1 h with h | ⟨_, _, h⟩
    . exact failsFirst_of_entries_error directory children h
    . contradiction

theorem failsFirst_of_entries_error (directory : Path) (entries : List ListedEntry) {e : LoadError}
    (h : Plan.ofEntries policy provider.isSource entries = .error e)
    : FailsFirst policy provider directory (.entries entries) e := by
  match entries with
  | [] => contradiction
  | .file path :: entries =>
    rw [Plan.ofEntries] at h
    rcases bind_eq_error_iff.1 h with h | ⟨first, hfirst, h⟩
    . rw [Plan.ofEntry] at h
      split at h <;> contradiction
    . rcases bind_eq_error_iff.1 h with h | ⟨_, _, h⟩
      . exact .cons_later hfirst (failsFirst_of_entries_error directory entries h)
      . contradiction
  | .directory path listing :: entries =>
    rw [Plan.ofEntries] at h
    rcases bind_eq_error_iff.1 h with h | ⟨first, hfirst, h⟩
    . rw [Plan.ofEntry] at h
      split at h
      . next hkept =>
        exact .cons_here (skipReason?_eq_none_iff.2 hkept) (failsFirst_of_error path listing h)
      . contradiction
    . rcases bind_eq_error_iff.1 h with h | ⟨_, _, h⟩
      . exact .cons_later hfirst (failsFirst_of_entries_error directory entries h)
      . contradiction

end

theorem ofListing_eq_error_iff {directory : Path} {listing : Listing} {e : LoadError}
    : Plan.ofListing policy provider.isSource directory listing = .error e
        ↔ FailsFirst policy provider directory listing e := by
  constructor
  . apply failsFirst_of_error
  . intro h
    have ⟨_, _, hfails, _⟩ := h
    obtain ⟨e', herror⟩ := hfails.exists_error
    rw [herror, h.unique (failsFirst_of_error directory listing herror)]

/-! ### What a walk reads -/

section Agrees

variable {other : Provider U} {directory path : Path}

theorem skipReason?_directory_isSome (provider other : Provider U) (path : Path)
    : (skipReason? policy other ⟨path, true⟩).isSome = (skipReason? policy provider ⟨path, true⟩).isSome := by
  rw [skipReason?_isSome, skipReason?_isSome]
  rfl

theorem AgreesBelow.here {listing listing' : Listing}
    (h : AgreesBelow policy provider other directory listing listing') : listing'.here = listing.here :=
  h.listings [] _ _ _ _ (.here _ _) (.here _ _)

theorem AgreesBelow.tail {entry entry' : ListedEntry} {entries entries' : List ListedEntry}
    (hhere : entries'.map ListedEntry.toDirEntry = entries.map ListedEntry.toDirEntry)
    (h : AgreesBelow policy provider other directory (.entries (entry :: entries))
      (.entries (entry' :: entries')))
    : AgreesBelow policy provider other directory (.entries entries) (.entries entries') := by
  -- a route through the later entries is one number off, and at its start they are listed themselves
  constructor
  . intro route o o' below below' hleads hleads'
    cases route with
    | nil =>
      rw [(leadsTo_entries_nil hleads).2, (leadsTo_entries_nil hleads').2]
      exact congrArg Except.ok hhere
    | cons i route =>
      exact h.listings _ _ _ _ _ (leadsTo_succ_iff.2 hleads) (leadsTo_succ_iff.2 hleads')
  . intro route o children hleads file hfile
    cases route with
    | nil =>
      cases (leadsTo_entries_nil hleads).2
      exact h.sources [] directory _ (.here _ _) file (List.mem_cons_of_mem _ hfile)
    | cons i route => exact h.sources _ _ _ (leadsTo_succ_iff.2 hleads) file hfile
  . intro route o children hleads file hfile
    cases route with
    | nil =>
      cases (leadsTo_entries_nil hleads).2
      exact h.files [] directory _ (.here _ _) file (List.mem_cons_of_mem _ hfile)
    | cons i route => exact h.files _ _ _ (leadsTo_succ_iff.2 hleads) file hfile
  . intro route o children hleads files hfiles
    cases route with
    | nil =>
      obtain ⟨rfl, hchildren⟩ := leadsTo_entries_nil hleads
      cases hchildren
      exact h.packages [] _ _ (.here _ _) files fun file hfile => List.mem_cons_of_mem _ (hfiles file hfile)
    | cons i route => exact h.packages _ _ _ (leadsTo_succ_iff.2 hleads) files hfiles

theorem AgreesBelow.below_entry {listing listing' : Listing} {entries entries' : List ListedEntry}
    (hkept : skipReason? policy provider ⟨path, true⟩ = none)
    (h : AgreesBelow policy provider other directory (.entries (.directory path listing :: entries))
      (.entries (.directory path listing' :: entries')))
    : AgreesBelow policy provider other path listing listing' := by
  have hstep {route : List Nat} {o : Path} {below : Listing}
      (hleads : LeadsTo policy provider path listing route o below)
      : LeadsTo policy provider directory (.entries (.directory path listing :: entries)) (0 :: route) o
        below := .through rfl hkept hleads
  have hkept' : skipReason? policy other ⟨path, true⟩ = none := by
    rw [skipReason?_eq_none_iff] at *
    exact hkept
  constructor
  . intro route o o' below below' hleads hleads'
    exact h.listings _ _ _ _ _ (hstep hleads) (.through rfl hkept' hleads')
  . intro route o children hleads
    exact h.sources _ _ _ (hstep hleads)
  . intro route o children hleads
    exact h.files _ _ _ (hstep hleads)
  . intro route o children hleads
    exact h.packages _ _ _ (hstep hleads)

theorem finish_congr {children : List ListedEntry} {v : Visit U P}
    (hpackages : ∀ files : List Path, (∀ path ∈ files, .file path ∈ children) →
      other.packageUnit? directory files = provider.packageUnit? directory files)
    (hvisit : visitEntries policy provider ⟨.empty, []⟩ children = .ok v)
    : v.finish policy other directory = v.finish policy provider directory := by
  rw [visitEntries_eq_plan] at hvisit
  obtain ⟨plan, _, rfl⟩ := map_eq_ok_iff.1 hvisit
  unfold Visit.finish
  rw [hpackages]
  intro file hfile
  exact (Plan.mem_plainFiles_iff.1 hfile).1

mutual

theorem ofListing_congr (directory : Path) (listing listing' : Listing)
    (h : AgreesBelow policy provider other directory listing listing')
    : ofListing policy other directory listing' = ofListing policy provider directory listing := by
  have hhere := h.here
  cases listing with
  | failed e =>
    cases listing' with
    | failed e' =>
      cases hhere
      rfl
    | entries children' => contradiction
  | entries children =>
    cases listing' with
    | failed e' => contradiction
    | entries children' =>
      injection hhere with hhere
      rw [ofListing, ofListing, visitEntries_congr directory children children' hhere h]
      cases hvisit : visitEntries policy provider ⟨.empty, []⟩ children with
      | error e => rfl
      | ok v => exact congrArg Except.ok (finish_congr (h.packages [] _ _ (.here _ _)) hvisit)

theorem visitEntries_congr (directory : Path) (entries entries' : List ListedEntry)
    (hhere : entries'.map ListedEntry.toDirEntry = entries.map ListedEntry.toDirEntry)
    (h : AgreesBelow policy provider other directory (.entries entries) (.entries entries'))
    (v : Visit U P)
    : visitEntries policy other v entries' = visitEntries policy provider v entries := by
  match entries, entries' with
  | [], [] => rfl
  | [], _ :: _ => contradiction
  | _ :: _, [] => contradiction
  | .file path :: entries, .directory path' listing' :: entries' => cases hhere
  | .directory path listing :: entries, .file path' :: entries' => cases hhere
  | .file path :: entries, .file path' :: entries' =>
    injection hhere with hfirst hrest
    cases hfirst
    have hlisted : .file path ∈ .file path :: entries := List.mem_cons_self
    have hsource := h.sources [] _ _ (.here _ _) path hlisted
    have hunit := h.files [] _ _ (.here _ _) path hlisted
    have hskip : skipReason? policy other ⟨path, false⟩ = skipReason? policy provider ⟨path, false⟩ := by
      unfold skipReason?
      rw [hsource]
    have hvisit : visitEntry policy other v (.file path) = visitEntry policy provider v (.file path) := by
      rw [visitEntry, visitEntry, hskip]
      unfold Visit.addFile
      rw [hunit]
    rw [visitEntries, visitEntries, hvisit]
    cases visitEntry policy provider v (.file path) with
    | error e => rfl
    | ok v => exact visitEntries_congr directory entries entries' hrest (h.tail hrest) v
  | .directory path listing :: entries, .directory path' listing' :: entries' =>
    injection hhere with hfirst hrest
    cases hfirst
    have hvisit : visitEntry policy other v (.directory path listing')
        = visitEntry policy provider v (.directory path listing) := by
      rw [visitEntry, visitEntry, skipReason?_directory_isSome provider other path]
      cases hkept : skipReason? policy provider ⟨path, true⟩ with
      | some reason => rfl
      | none => rw [ofListing_congr path listing listing' (h.below_entry hkept)]
    rw [visitEntries, visitEntries, hvisit]
    cases visitEntry policy provider v (.directory path listing) with
    | error e => rfl
    | ok v => exact visitEntries_congr directory entries entries' hrest (h.tail hrest) v

end

end Agrees

/-! ### The law -/

theorem ofProject_eq_error_iff {e : LoadError}
    : ofProject policy provider = .error e
        ↔ policy.isIgnored policy.root = false
          ∧ FailsFirst policy provider policy.root (provider.listing policy.root) e := by
  rw [ofProject_eq_plan, map_eq_error_iff, Plan.ofProject, ← ofListing_eq_error_iff]
  cases policy.isIgnored policy.root <;> simp

theorem FailsFirst.exists_iff {directory : Path} {listing : Listing}
    : (∃ e, FailsFirst policy provider directory listing e)
        ↔ ∃ route other e, LeadsTo policy provider directory listing route other (.failed e) := by
  constructor
  . rintro ⟨e, route, other, hfails, _⟩
    exact ⟨route, other, e, hfails⟩
  . rintro ⟨route, other, e, hfails⟩
    obtain ⟨e', herror⟩ := hfails.exists_error
    exact ⟨e', failsFirst_of_error directory listing herror⟩

theorem ofProject_congr {other : Provider U} (h : AgreesWith policy provider other)
    : ofProject policy other = ofProject policy provider := by
  unfold ofProject traverse
  rw [ofListing_congr _ _ _ h]

end Schedule

theorem checkProject_eq_error_iff {find : Matcher U P} {policy : Policy P} {provider : Provider U}
    {e : LoadError}
    : checkProject find policy provider = .error e ↔ Schedule.ofProject policy provider = .error e := by
  unfold checkProject
  rw [bind_eq_error_iff]
  simp [pure, Except.pure]

theorem Project.prepare_map_run? (tree : FileTree) (root : Path) (c : Config)
    : (Project.prepare tree root c).map Project.run?
        =
      (do
        let policy ← (Policy.resolve compileNodePattern tree root c).mapError ProjectError.policy
        let sources ← (Sources.load tree root policy.ignored).mapError ProjectError.load
        (checkProject SourceUnit.matcher policy (sources.provider tree)).mapError ProjectError.load) := by
  unfold Project.prepare
  cases Policy.resolve compileNodePattern tree root c with
  | error e => rfl
  | ok policy =>
    cases hload : Sources.load tree root policy.ignored with
    | error e => simp [Except.mapError, Except.map, bind, Except.bind, hload]
    | ok sources =>
      cases hschedule : Schedule.ofProject policy (sources.provider tree) with
      | error e => simp [checkProject, Except.mapError, Except.map, bind, Except.bind, hload, hschedule]
      | ok schedule =>
        simp [checkProject, Except.mapError, Except.map, bind, Except.bind, hload, hschedule, pure,
          Except.pure, Project.run?]

/--
The law of failures. A schedule cannot be made if and only if a directory that the walk comes to cannot be
listed, and the first one of them in the order of the walk gives the error; nothing is evaluated then.
Only what is listed where the walk comes to has an influence, and nothing at all if the root is ignored.
-/
theorem Schedule.ofProject_fails_at_first (policy : Policy P) (provider : Provider U)
    : (policy.isIgnored policy.root = true → ofProject policy provider = .ok .empty)
        ∧ ((∃ e, ofProject policy provider = .error e)
          ↔ policy.isIgnored policy.root = false
            ∧ ∃ route directory e, LeadsTo policy provider policy.root (provider.listing policy.root) route
              directory (.failed e))
        ∧ (∀ e, ofProject policy provider = .error e
          ↔ policy.isIgnored policy.root = false
            ∧ FailsFirst policy provider policy.root (provider.listing policy.root) e)
        ∧ (∀ e, ofProject policy provider = .error e →
          ∀ find, checkProject find policy provider = .error e)
        ∧ ∀ other, AgreesWith policy provider other →
          ofProject policy other = ofProject policy provider := by
  refine ⟨?_, ?_, fun e => ofProject_eq_error_iff, fun e h find => checkProject_eq_error_iff.2 h,
    fun other h => ofProject_congr h⟩
  . intro hignored
    unfold ofProject
    rw [if_pos hignored]
  . rw [← FailsFirst.exists_iff, ← exists_and_left]
    exact exists_congr fun e => ofProject_eq_error_iff

namespace Schedule

def failingListing (left : Listing) : Listing :=
  .entries [
    .directory ⟨"/p/gen"⟩ left,
    .file ⟨"/p/one.rs"⟩,
    .directory ⟨"/p/src"⟩ (.entries [
      .directory ⟨"/p/src/deep"⟩ (.failed (.walk ⟨"/p/src/deep"⟩ "denied"))]),
    .directory ⟨"/p/vendor"⟩ left,
    .directory ⟨"/p/zone"⟩ (.failed (.walk ⟨"/p/zone"⟩ "gone"))]

def failingProvider (left : Listing) : Provider (List Path) :=
  { sampleProvider with listing := fun _ => failingListing left }

theorem agreesWith_failingProvider (left left' : Listing)
    : AgreesWith samplePolicy (failingProvider left) (failingProvider left') := by
  have hleft {path : Path} (h : samplePolicy.admits isSourcePath ⟨path, true⟩ = false)
      : skipReason? samplePolicy (failingProvider left) ⟨path, true⟩ ≠ none := by
    rw [Ne, skipReason?_eq_none_iff]
    exact fun h' => Bool.false_ne_true (h.symm.trans h')
  constructor
  . intro route directory directory' below below' h h'
    cases h with
    | here =>
      cases h'
      rfl
    | @through _ _ _ _ _ _ i route hlisted hkept hrest =>
      obtain _ | ⟨hlisted', _, hrest'⟩ := h'
      match i with
      | 0 =>
        cases hlisted
        exact absurd hkept (hleft (by decide))
      | 1 => cases hlisted
      | 2 =>
        cases hlisted
        cases hlisted'
        cases route with
        | nil => rw [(leadsTo_entries_nil hrest).2, (leadsTo_entries_nil hrest').2]
        | cons i route =>
          cases i with
          | zero =>
            obtain ⟨_, _, hdeep, _, hfails⟩ := leadsTo_zero_iff.1 hrest
            obtain ⟨_, _, hdeep', _, hfails'⟩ := leadsTo_zero_iff.1 hrest'
            cases hdeep
            cases hdeep'
            rw [(leadsTo_failed_iff.1 hfails).2.2, (leadsTo_failed_iff.1 hfails').2.2]
          | succ i => cases leadsTo_succ_iff.1 hrest with | through hlisted => contradiction
      | 3 =>
        cases hlisted
        exact absurd hkept (hleft (by decide))
      | 4 =>
        cases hlisted
        cases hlisted'
        rw [(leadsTo_failed_iff.1 hrest).2.2, (leadsTo_failed_iff.1 hrest').2.2]
      | i + 5 => cases hlisted
  . intros
    rfl
  . intros
    rfl
  . intros
    rfl

end Schedule

theorem Schedule.ofProject_fails_at_first_sample
    : ofProject samplePolicy (failingProvider (.entries [])) = .error (.walk ⟨"/p/src/deep"⟩ "denied")
        ∧ FailsFirst samplePolicy (failingProvider (.entries [])) ⟨"/p"⟩ (failingListing (.entries []))
          (.walk ⟨"/p/src/deep"⟩ "denied")
        ∧ checkProject (fun _ _ => .ok []) samplePolicy (failingProvider (.entries []))
          = .error (.walk ⟨"/p/src/deep"⟩ "denied")
        ∧ AgreesWith samplePolicy (failingProvider (.entries []))
          (failingProvider (.failed (.walk ⟨"/p/gen"⟩ "gone")))
        ∧ ofProject samplePolicy (failingProvider (.failed (.walk ⟨"/p/gen"⟩ "gone")))
          = .error (.walk ⟨"/p/src/deep"⟩ "denied") := by
  obtain ⟨_, _, hfirst, hevaluated, hsame⟩ :=
    ofProject_fails_at_first samplePolicy (failingProvider (.entries []))
  have hfails : ofProject samplePolicy (failingProvider (.entries []))
      = .error (.walk ⟨"/p/src/deep"⟩ "denied") := by
    rfl
  have hagrees := agreesWith_failingProvider (.entries []) (.failed (.walk ⟨"/p/gen"⟩ "gone"))
  refine ⟨hfails, ((hfirst _).1 hfails).2, hevaluated _ hfails _, hagrees, ?_⟩
  rw [hsame _ hagrees, hfails]

end PatternLint
