import PatternLint.Proofs.Schedule.Basic
import PatternLint.Schedule.Traversal

/-!
This module contains plans: the units that a walk over a project asks for, in their order and with
the checkers for each. A plan depends on the policy and the listing alone. The schedule of the walk
is made of the planned units that the provider has.
-/

namespace PatternLint

variable {U P : Type}

inductive UnitRequest where
  | file (path : Path)
  | package (directory : Path) (files : List Path)
  deriving DecidableEq, Repr

namespace UnitRequest

def files : UnitRequest → List Path
  | file path => [path]
  | package _ files => files

end UnitRequest

def Provider.unit? (provider : Provider U) : UnitRequest → Option U
  | .file path => provider.fileUnit? path
  | .package directory files => provider.packageUnit? directory files

def Policy.admits (policy : Policy P) (isSource : Path → Bool) (e : DirEntry) : Bool :=
  !policy.isIgnored e.path && !isHiddenName e.name
    && if e.isDirectory then e.name != vendorName else isSource e.path

theorem skipReason?_isSome (policy : Policy P) (provider : Provider U) (e : DirEntry)
    : (skipReason? policy provider e).isSome = !policy.admits provider.isSource e := by
  unfold skipReason? Policy.admits
  cases policy.isIgnored e.path <;> cases isHiddenName e.name <;> cases e.isDirectory <;> simp
  . cases provider.isSource e.path <;> simp
  . by_cases h : e.name = vendorName <;> simp [h]

/-- Requests for units in their order, each with the checkers in force for its files. -/
abbrev Plan (P : Type) :=
  List (UnitRequest × CheckerSet P)

namespace Plan

def files (plan : Plan P) : List Path :=
  plan.flatMap fun planned => planned.1.files

section Walk

variable (policy : Policy P) (isSource : Path → Bool)

def plainFiles : List ListedEntry → List Path
  | [] => []
  | .file path :: entries =>
    if policy.admits isSource ⟨path, false⟩ && (policy.overrideFor? path).isNone then
      path :: plainFiles entries
    else
      plainFiles entries
  | .directory _ _ :: entries => plainFiles entries

def ofPlain (directory : Path) (plain : List Path) : Plan P :=
  if plain.isEmpty then
    []
  else
    [(.package directory plain, policy.checkersFor directory)]

mutual

def ofListing (directory : Path) : Listing → Except LoadError (Plan P)
  | .failed e => .error e
  | .entries children => do
    let plan ← ofEntries children
    return plan ++ ofPlain policy directory (plainFiles policy isSource children)

def ofEntries : List ListedEntry → Except LoadError (Plan P)
  | [] => .ok []
  | entry :: entries => do
    let first ← ofEntry entry
    let rest ← ofEntries entries
    return first ++ rest

def ofEntry : ListedEntry → Except LoadError (Plan P)
  | .file path =>
    if policy.admits isSource ⟨path, false⟩ then
      .ok ((policy.overrideFor? path).toList.map fun set => (.file path, set))
    else
      .ok []
  | .directory path listing =>
    if policy.admits isSource ⟨path, true⟩ then
      ofListing path listing
    else
      .ok []

end

def ofProject (policy : Policy P) (isSource : Path → Bool) (listing : Listing) :
    Except LoadError (Plan P) :=
  if policy.isIgnored policy.root then
    .ok []
  else
    ofListing policy isSource policy.root listing

variable {policy : Policy P} {isSource : Path → Bool}

theorem ofListing_eq_ok_iff {directory : Path} {children : List ListedEntry} {plan : Plan P}
    : ofListing policy isSource directory (.entries children) = .ok plan
        ↔
      ∃ below, ofEntries policy isSource children = .ok below
        ∧ plan = below ++ ofPlain policy directory (plainFiles policy isSource children) := by
  rw [ofListing]
  cases ofEntries policy isSource children with
  | error e => simp [bind, Except.bind]
  | ok below => simp [bind, Except.bind, pure, Except.pure, eq_comm]

theorem ofEntries_cons_eq_ok_iff {entry : ListedEntry} {entries : List ListedEntry} {plan : Plan P}
    : ofEntries policy isSource (entry :: entries) = .ok plan
        ↔
      ∃ first rest, ofEntry policy isSource entry = .ok first
        ∧ ofEntries policy isSource entries = .ok rest ∧ plan = first ++ rest := by
  rw [ofEntries]
  cases ofEntry policy isSource entry with
  | error e => simp [bind, Except.bind]
  | ok first =>
    cases ofEntries policy isSource entries with
    | error e => simp [bind, Except.bind]
    | ok rest => simp [bind, Except.bind, pure, Except.pure, eq_comm]

theorem mem_plainFiles_iff {file : Path} {entries : List ListedEntry}
    : file ∈ plainFiles policy isSource entries
        ↔
      .file file ∈ entries ∧ policy.admits isSource ⟨file, false⟩ = true
        ∧ policy.overrideFor? file = none := by
  induction entries with
  | nil => simp [plainFiles]
  | cons entry entries ih =>
    cases entry with
    | directory path listing => simp [plainFiles, ih]
    | file path =>
      rw [plainFiles]
      split
      . next h =>
        rw [Bool.and_eq_true, Option.isNone_iff_eq_none] at h
        simp only [List.mem_cons, ih, ListedEntry.file.injEq]
        constructor
        . rintro (rfl | h')
          . exact ⟨.inl rfl, h⟩
          . exact ⟨.inr h'.1, h'.2⟩
        . rintro ⟨rfl | hmem, h'⟩
          . exact .inl rfl
          . exact .inr ⟨hmem, h'⟩
      . next h =>
        rw [Bool.and_eq_true, Option.isNone_iff_eq_none] at h
        simp only [List.mem_cons, ih, ListedEntry.file.injEq]
        constructor
        . rintro ⟨hmem, h'⟩
          exact ⟨.inr hmem, h'⟩
        . rintro ⟨rfl | hmem, h'⟩
          . contradiction
          . exact ⟨hmem, h'⟩

end Walk

end Plan

namespace Schedule

def addPlanned (provider : Provider U) (s : Schedule U P)
    (planned : UnitRequest × CheckerSet P) : Schedule U P :=
  match provider.unit? planned.1 with
  | some unit => s.push unit planned.2
  | none => s

def ofPlan (provider : Provider U) (plan : Plan P) : Schedule U P :=
  plan.foldl (addPlanned provider) .empty

section OfPlan

variable (provider : Provider U)

theorem append_addPlanned (s t : Schedule U P) (planned : UnitRequest × CheckerSet P)
    : s.append (addPlanned provider t planned) = addPlanned provider (s.append t) planned := by
  unfold addPlanned
  split
  . apply append_push
  . rfl

theorem foldl_addPlanned (s : Schedule U P) (plan : Plan P)
    : plan.foldl (addPlanned provider) s = s.append (ofPlan provider plan) := by
  induction plan generalizing s with
  | nil => exact (append_empty s).symm
  | cons planned plan ih =>
    unfold ofPlan
    rw [List.foldl_cons, List.foldl_cons, ih, ih, ← append_assoc, append_addPlanned, append_empty]

theorem ofPlan_append (plan others : Plan P)
    : ofPlan provider (plan ++ others) = (ofPlan provider plan).append (ofPlan provider others) := by
  rw [← foldl_addPlanned]
  unfold ofPlan
  rw [List.foldl_append]

theorem ofPlan_nil : ofPlan provider ([] : Plan P) = .empty := by
  rfl

theorem ofPlan_singleton (planned : UnitRequest × CheckerSet P)
    : ofPlan provider [planned] = addPlanned provider .empty planned := by
  rfl

theorem ofPlan_cons (planned : UnitRequest × CheckerSet P) (plan : Plan P)
    : ofPlan provider (planned :: plan)
        =
      (addPlanned provider .empty planned).append (ofPlan provider plan) := by
  rw [← ofPlan_singleton, ← ofPlan_append]
  rfl

theorem inRange_ofPlan (plan : Plan P) : (ofPlan provider plan).InRange := by
  induction plan with
  | nil => exact inRange_empty
  | cons planned plan ih =>
    rw [ofPlan_cons]
    apply inRange_append _ ih
    unfold addPlanned
    split
    . exact inRange_push inRange_empty _ _
    . exact inRange_empty

theorem pairs_ofPlan (plan : Plan P)
    : (ofPlan provider plan).pairs
        =
      plan.flatMap fun planned =>
        match provider.unit? planned.1 with
        | some unit => planned.2.checkers.map fun checker => (unit, checker)
        | none => [] := by
  induction plan with
  | nil => rfl
  | cons planned plan ih =>
    have hrange := inRange_ofPlan provider [planned]
    rw [ofPlan_singleton] at hrange
    rw [ofPlan_cons, pairs_append hrange, ih, List.flatMap_cons]
    congr 1
    unfold addPlanned
    split
    . apply pairs_push_empty
    . rfl

theorem units_ofPlan (plan : Plan P)
    : (ofPlan provider plan).units
        =
      plan.filterMap fun planned =>
        if planned.2.isEmpty then none else provider.unit? planned.1 := by
  induction plan with
  | nil => rfl
  | cons planned plan ih =>
    rw [ofPlan_cons, units_append, ih, List.filterMap_cons]
    unfold addPlanned
    cases provider.unit? planned.1 with
    | none => simp [empty]
    | some unit =>
      rw [units_push_empty]
      cases planned.2.isEmpty <;> rfl

theorem ofPlan_eq_filter {provider other : Provider U} {plan : Plan P}
    (h : ∀ planned ∈ plan,
      other.unit? planned.1 = none ∨ other.unit? planned.1 = provider.unit? planned.1)
    : ofPlan other plan
        =
      ofPlan provider (plan.filter fun planned => (other.unit? planned.1).isSome) := by
  induction plan with
  | nil => rfl
  | cons planned plan ih =>
    have hrest := ih fun rest hrest => h rest (List.mem_cons_of_mem _ hrest)
    rw [ofPlan_cons, hrest, List.filter_cons]
    cases hunit : other.unit? planned.1 with
    | none =>
      simp only [Option.isSome_none, Bool.false_eq_true, ↓reduceIte]
      unfold addPlanned
      rw [hunit]
      apply empty_append
    | some unit =>
      simp only [Option.isSome_some, ↓reduceIte]
      rw [ofPlan_cons]
      congr 1
      have hsame : provider.unit? planned.1 = some unit := by
        rcases h planned List.mem_cons_self with hnone | hsame
        . rw [hnone] at hunit
          contradiction
        . rw [← hsame, hunit]
      unfold addPlanned
      rw [hunit, hsame]

end OfPlan

section Walk

variable (policy : Policy P) (provider : Provider U)

theorem plainFiles_cons (isSource : Path → Bool) (entry : ListedEntry) (entries : List ListedEntry)
    : Plan.plainFiles policy isSource (entry :: entries)
        =
      Plan.plainFiles policy isSource [entry] ++ Plan.plainFiles policy isSource entries := by
  cases entry with
  | file path =>
    rw [Plan.plainFiles, Plan.plainFiles]
    split <;> rfl
  | directory path listing => rfl

theorem addFile_eq_plan (v : Visit U P) (path : Path)
    : v.addFile policy provider path
        =
      ⟨v.schedule.append (ofPlan provider
          ((policy.overrideFor? path).toList.map fun set => (.file path, set))),
        v.plain ++ if (policy.overrideFor? path).isNone then [path] else []⟩ := by
  unfold Visit.addFile
  cases policy.overrideFor? path with
  | none => simp [ofPlan_nil]
  | some set =>
    simp only [Option.toList_some, List.map_singleton, ofPlan_singleton, append_addPlanned,
      append_empty, Option.isNone_some, Bool.false_eq_true, ↓reduceIte, List.append_nil]
    unfold addPlanned Provider.unit?
    dsimp
    cases provider.fileUnit? path <;> rfl

theorem finish_eq_plan (v : Visit U P) (directory : Path)
    : v.finish policy provider directory
        =
      v.schedule.append (ofPlan provider (Plan.ofPlain policy directory v.plain)) := by
  unfold Visit.finish Plan.ofPlain
  split
  . rw [ofPlan_nil, append_empty]
  . rw [ofPlan_singleton, append_addPlanned, append_empty]
    rfl

mutual

theorem ofListing_eq_plan (directory : Path) (listing : Listing)
    : ofListing policy provider directory listing
        =
      (Plan.ofListing policy provider.isSource directory listing).map (ofPlan provider) := by
  cases listing with
  | failed e => rfl
  | entries children =>
    rw [ofListing, Plan.ofListing, visitEntries_eq_plan]
    cases Plan.ofEntries policy provider.isSource children with
    | error e => rfl
    | ok plan =>
      dsimp [Except.map, bind, Except.bind, pure, Except.pure]
      rw [finish_eq_plan, ofPlan_append, empty_append]

theorem visitEntries_eq_plan (v : Visit U P) (entries : List ListedEntry)
    : visitEntries policy provider v entries
        =
      (Plan.ofEntries policy provider.isSource entries).map fun plan =>
        ⟨v.schedule.append (ofPlan provider plan),
          v.plain ++ Plan.plainFiles policy provider.isSource entries⟩ := by
  cases entries with
  | nil =>
    simp [visitEntries, Plan.ofEntries, Except.map, ofPlan_nil, Plan.plainFiles]
  | cons entry entries =>
    rw [visitEntries, Plan.ofEntries, visitEntry_eq_plan]
    cases Plan.ofEntry policy provider.isSource entry with
    | error e => rfl
    | ok first =>
      dsimp [Except.map, bind, Except.bind, pure, Except.pure]
      rw [visitEntries_eq_plan]
      cases Plan.ofEntries policy provider.isSource entries with
      | error e => rfl
      | ok rest =>
        dsimp [Except.map]
        rw [ofPlan_append, append_assoc, List.append_assoc, ← plainFiles_cons]

theorem visitEntry_eq_plan (v : Visit U P) (entry : ListedEntry)
    : visitEntry policy provider v entry
        =
      (Plan.ofEntry policy provider.isSource entry).map fun plan =>
        ⟨v.schedule.append (ofPlan provider plan),
          v.plain ++ Plan.plainFiles policy provider.isSource [entry]⟩ := by
  cases entry with
  | file path =>
    rw [visitEntry, Plan.ofEntry, skipReason?_isSome, Plan.plainFiles]
    cases policy.admits provider.isSource ⟨path, false⟩ with
    | false => simp [Except.map, ofPlan_nil, Plan.plainFiles]
    | true =>
      simp only [Bool.not_true, Bool.false_eq_true, ↓reduceIte, addFile_eq_plan, Except.map,
        Bool.true_and, Plan.plainFiles]
  | directory path listing =>
    rw [visitEntry, Plan.ofEntry, skipReason?_isSome, Plan.plainFiles]
    cases policy.admits provider.isSource ⟨path, true⟩ with
    | false => simp [Except.map, ofPlan_nil, Plan.plainFiles]
    | true =>
      simp only [Bool.not_true, Bool.false_eq_true, ↓reduceIte, ofListing_eq_plan, Plan.plainFiles,
        List.append_nil]
      cases Plan.ofListing policy provider.isSource path listing <;> rfl

end

theorem ofProject_eq_plan
    : ofProject policy provider
        =
      (Plan.ofProject policy provider.isSource (provider.listing policy.root)).map
        (ofPlan provider) := by
  unfold ofProject Plan.ofProject traverse
  split
  . rfl
  . apply ofListing_eq_plan

end Walk

end Schedule

end PatternLint
