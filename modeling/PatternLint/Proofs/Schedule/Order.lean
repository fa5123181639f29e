import PatternLint.Proofs.Policy.Resolve
import PatternLint.Proofs.Schedule.Coverage

/-!
This module contains the law of the order of schedules. A schedule is a row of blocks, one for each of
its units. What a directory adds to it stands together: what its entries add in the order of its listing,
and last the block for its files without an override.
-/

namespace PatternLint

variable {U P : Type}

structure Block (U P : Type) where
  unit : U
  checkers : List (Checker P)
  deriving DecidableEq, Repr

structure Block.IsOrdered (block : Block U P) : Prop where
  nonempty : block.checkers ≠ []
  increasing : block.checkers.Pairwise fun c d => Text.bytes c.name < Text.bytes d.name

namespace Schedule

def ofBlocks (blocks : List (Block U P)) : Schedule U P :=
  ⟨blocks.map Block.unit,
    blocks.zipIdx.flatMap fun (block, i) => block.checkers.map (Check.mk i)⟩

theorem ofBlocks_append (blocks others : List (Block U P))
    : ofBlocks (blocks ++ others) = (ofBlocks blocks).append (ofBlocks others) := by
  unfold ofBlocks append
  rw [List.map_append, List.zipIdx_append, List.flatMap_append, mk.injEq]
  refine ⟨rfl, congrArg _ ?_⟩
  -- the numbers of the later units are those that they had, after all units before
  rw [List.zipIdx_eq_map_add, List.flatMap_map, List.map_flatMap]
  congr 1
  funext entry
  simp [Function.comp_def, Nat.add_comm]

theorem push_empty_eq_ofBlocks (unit : U) (set : CheckerSet P)
    : (empty.push unit set : Schedule U P)
        =
      ofBlocks (if set.isEmpty then [] else [⟨unit, set.checkers⟩]) := by
  unfold push
  split
  . rfl
  . simp [ofBlocks, empty]

end Schedule

/-! ### Which blocks there are -/

section Spec

variable (policy : Policy P) (provider : Provider U)

inductive UnitBlocks (unit? : Option U) (set : CheckerSet P) : List (Block U P) → Prop where
  | block (unit : U) (hunit : unit? = some unit) (hset : set.checkers ≠ [])
      : UnitBlocks unit? set [⟨unit, set.checkers⟩]
  | none (h : unit? = none ∨ set.checkers = []) : UnitBlocks unit? set []

inductive PackageBlocks (directory : Path) (children : List ListedEntry) : List (Block U P) → Prop where
  | package {blocks : List (Block U P)} (hfiles : Plan.plainFiles policy provider.isSource children ≠ [])
      (hblocks : UnitBlocks
        (provider.packageUnit? directory (Plan.plainFiles policy provider.isSource children))
        (policy.checkersFor directory) blocks)
      : PackageBlocks directory children blocks
  | none (h : Plan.plainFiles policy provider.isSource children = [])
      : PackageBlocks directory children []

mutual

/-- The blocks for a directory and all below it. -/
inductive DirectoryBlocks : Path → Listing → List (Block U P) → Prop where
  | entries {directory : Path} {children : List ListedEntry} {parts : List (List (Block U P))}
      {last : List (Block U P)} (hparts : EntriesBlocks children parts)
      (hlast : PackageBlocks policy provider directory children last)
      : DirectoryBlocks directory (.entries children) (parts.flatten ++ last)

inductive EntriesBlocks : List ListedEntry → List (List (Block U P)) → Prop where
  | nil : EntriesBlocks [] []
  | skip {entry : ListedEntry} {entries : List ListedEntry} {parts : List (List (Block U P))}
      (hskip : policy.admits provider.isSource entry.toDirEntry = false)
      (hentries : EntriesBlocks entries parts)
      : EntriesBlocks (entry :: entries) parts
  | keep {entry : ListedEntry} {entries : List ListedEntry} {part : List (Block U P)}
      {parts : List (List (Block U P))} (hkept : policy.admits provider.isSource entry.toDirEntry = true)
      (hentry : EntryBlocks entry part) (hentries : EntriesBlocks entries parts)
      : EntriesBlocks (entry :: entries) (part :: parts)

inductive EntryBlocks : ListedEntry → List (Block U P) → Prop where
  | directory {path : Path} {listing : Listing} {blocks : List (Block U P)}
      (hblocks : DirectoryBlocks path listing blocks)
      : EntryBlocks (.directory path listing) blocks
  | plain {path : Path} (hset : policy.overrideFor? path = none) : EntryBlocks (.file path) []
  | overridden {path : Path} {set : CheckerSet P} {blocks : List (Block U P)}
      (hset : policy.overrideFor? path = some set)
      (hblocks : UnitBlocks (provider.fileUnit? path) set blocks)
      : EntryBlocks (.file path) blocks

end

inductive Visits : Path → Listing → Path → Listing → Prop where
  | here (directory : Path) (listing : Listing) : Visits directory listing directory listing
  | through {directory path other : Path} {children : List ListedEntry} {listing below : Listing}
      (hlisted : .directory path listing ∈ children)
      (hkept : policy.admits provider.isSource ⟨path, true⟩ = true)
      (hvisits : Visits path listing other below)
      : Visits directory (.entries children) other below

end Spec

variable {policy : Policy P} {provider : Provider U}

/-! ### They are determined -/

theorem UnitBlocks.unique {unit? : Option U} {set : CheckerSet P} {blocks other : List (Block U P)}
    (h : UnitBlocks unit? set blocks) (h' : UnitBlocks unit? set other) : other = blocks := by
  cases h with
  | block unit hunit hset =>
    cases h' with
    | block unit' hunit' _ =>
      cases hunit.symm.trans hunit'
      rfl
    | none h' => simp [hunit, hset] at h'
  | none h =>
    cases h' with
    | block unit hunit hset => simp [hunit, hset] at h
    | none _ => rfl

theorem PackageBlocks.unique {directory : Path} {children : List ListedEntry}
    {blocks other : List (Block U P)} (h : PackageBlocks policy provider directory children blocks)
    (h' : PackageBlocks policy provider directory children other) : other = blocks := by
  cases h with
  | package hfiles hblocks =>
    cases h' with
    | package _ hblocks' => exact hblocks.unique hblocks'
    | none hnone => contradiction
  | none hnone =>
    cases h' with
    | package hfiles _ => contradiction
    | none _ => rfl

mutual

theorem DirectoryBlocks.unique {directory : Path} {listing : Listing} {blocks other : List (Block U P)}
    (h : DirectoryBlocks policy provider directory listing blocks)
    (h' : DirectoryBlocks policy provider directory listing other) : other = blocks := by
  cases h with
  | entries hparts hlast =>
    cases h' with
    | entries hparts' hlast' => rw [hparts.unique hparts', hlast.unique hlast']

theorem EntriesBlocks.unique {entries : List ListedEntry} {parts others : List (List (Block U P))}
    (h : EntriesBlocks policy provider entries parts)
    (h' : EntriesBlocks policy provider entries others) : others = parts := by
  cases h with
  | nil =>
    cases h'
    rfl
  | skip hskip hentries =>
    cases h' with
    | skip _ hentries' => exact hentries.unique hentries'
    | keep hkept _ _ => simp [hkept] at hskip
  | keep hkept hentry hentries =>
    cases h' with
    | skip hskip _ => simp [hkept] at hskip
    | keep _ hentry' hentries' => rw [hentry.unique hentry', hentries.unique hentries']

theorem EntryBlocks.unique {entry : ListedEntry} {blocks other : List (Block U P)}
    (h : EntryBlocks policy provider entry blocks)
    (h' : EntryBlocks policy provider entry other) : other = blocks := by
  cases h with
  | directory hblocks =>
    cases h' with
    | directory hblocks' => exact hblocks.unique hblocks'
  | plain hset =>
    cases h' with
    | plain _ => rfl
    | overridden hset' _ => simp [hset] at hset'
  | overridden hset hblocks =>
    cases h' with
    | plain hset' => simp [hset] at hset'
    | overridden hset' hblocks' =>
      cases hset.symm.trans hset'
      exact hblocks.unique hblocks'

end

/-! ### What a directory adds stands together -/

theorem EntriesBlocks.exists_of_mem {entries : List ListedEntry} {parts : List (List (Block U P))}
    {entry : ListedEntry} (h : EntriesBlocks policy provider entries parts) (hmem : entry ∈ entries)
    (hkept : policy.admits provider.isSource entry.toDirEntry = true)
    : ∃ front part back, parts = front ++ part :: back ∧ EntryBlocks policy provider entry part := by
  induction entries generalizing parts with
  | nil => contradiction
  | cons first entries ih =>
    cases h with
    | skip hskip hentries =>
      rcases List.mem_cons.1 hmem with rfl | hmem
      . simp [hkept] at hskip
      . exact ih hentries hmem
    | @keep _ _ part parts _ hfirst hentries =>
      rcases List.mem_cons.1 hmem with rfl | hmem
      . exact ⟨[], part, parts, rfl, hfirst⟩
      . obtain ⟨front, other, back, rfl, hentry⟩ := ih hentries hmem
        exact ⟨part :: front, other, back, rfl, hentry⟩

theorem Visits.exists_blocks {start directory : Path} {listing other : Listing}
    {blocks : List (Block U P)} (hvisits : Visits policy provider start listing directory other)
    (h : DirectoryBlocks policy provider start listing blocks)
    : ∃ before own after, blocks = before ++ own ++ after
        ∧ DirectoryBlocks policy provider directory other own := by
  induction hvisits generalizing blocks with
  | here directory listing => exact ⟨[], blocks, [], by simp, h⟩
  | through hlisted hkept _ ih =>
    cases h with
    | @entries _ _ parts last hparts hlast =>
      obtain ⟨front, part, back, rfl, hentry⟩ := hparts.exists_of_mem hlisted hkept
      cases hentry with
      | directory hblocks =>
        obtain ⟨before, own, after, rfl, hown⟩ := ih hblocks
        exact ⟨front.flatten ++ before, own, after ++ back.flatten ++ last, by simp, hown⟩

/-! ### The blocks of a plan -/

namespace Plan

def block? (provider : Provider U) (planned : UnitRequest × CheckerSet P) : Option (Block U P) :=
  if planned.2.isEmpty then
    none
  else
    (provider.unit? planned.1).map fun unit => ⟨unit, planned.2.checkers⟩

def blocks (provider : Provider U) (plan : Plan P) : List (Block U P) :=
  plan.filterMap (block? provider)

theorem blocks_append (plan others : Plan P)
    : (plan ++ others).blocks provider = plan.blocks provider ++ others.blocks provider := by
  apply List.filterMap_append

theorem unitBlocks_singleton (planned : UnitRequest × CheckerSet P)
    : UnitBlocks (provider.unit? planned.1) planned.2 (blocks provider [planned]) := by
  unfold blocks block?
  rw [List.filterMap_cons]
  by_cases hset : planned.2.checkers = []
  . rw [if_pos (CheckerSet.isEmpty_iff.2 hset)]
    exact .none (.inr hset)
  . rw [if_neg fun h => hset (CheckerSet.isEmpty_iff.1 h)]
    cases hunit : provider.unit? planned.1 with
    | none => exact .none (.inl rfl)
    | some unit => exact .block unit rfl hset

theorem isOrdered_of_mem_blocks {plan : Plan P} {block : Block U P} (h : block ∈ plan.blocks provider)
    : block.IsOrdered := by
  obtain ⟨planned, _, hblock⟩ := List.mem_filterMap.1 h
  unfold block? at hblock
  split at hblock
  . contradiction
  . next hset =>
    obtain ⟨unit, _, rfl⟩ := Option.map_eq_some_iff.1 hblock
    exact ⟨fun hnil => hset (CheckerSet.isEmpty_iff.2 hnil), planned.2.pairwise_bytes⟩

end Plan

theorem Schedule.ofPlan_eq_ofBlocks (plan : Plan P)
    : ofPlan provider plan = ofBlocks (plan.blocks provider) := by
  induction plan with
  | nil => rfl
  | cons planned plan ih =>
    rw [ofPlan_cons, ih, ← List.singleton_append, Plan.blocks_append, ofBlocks_append]
    congr 1
    unfold addPlanned Plan.blocks Plan.block?
    rw [List.filterMap_cons, List.filterMap_nil]
    cases provider.unit? planned.1 with
    | none => simp [ofBlocks, empty]
    | some unit =>
      dsimp only
      rw [push_empty_eq_ofBlocks]
      split <;> rfl

/-! ### The blocks of a walk -/

section Walk

theorem ofEntry_of_not_admits {isSource : Path → Bool} {entry : ListedEntry}
    (h : policy.admits isSource entry.toDirEntry = false)
    : Plan.ofEntry policy isSource entry = .ok [] := by
  cases entry with
  | file path => exact if_neg (Bool.eq_false_iff.1 h)
  | directory path listing => exact if_neg (Bool.eq_false_iff.1 h)

theorem packageBlocks_ofPlain (directory : Path) (children : List ListedEntry)
    : PackageBlocks policy provider directory children
        ((Plan.ofPlain policy directory
          (Plan.plainFiles policy provider.isSource children)).blocks provider) := by
  unfold Plan.ofPlain
  split
  . next hnone => exact .none (List.isEmpty_iff.1 hnone)
  . next hfiles =>
    refine .package (fun hnil => hfiles (List.isEmpty_iff.2 hnil)) ?_
    exact Plan.unitBlocks_singleton (.package directory _, _)

mutual

theorem directoryBlocks_of_plan (directory : Path) (listing : Listing) {plan : Plan P}
    (h : Plan.ofListing policy provider.isSource directory listing = .ok plan)
    : DirectoryBlocks policy provider directory listing (plan.blocks provider) := by
  cases listing with
  | failed e => contradiction
  | entries children =>
    obtain ⟨below, hbelow, rfl⟩ := Plan.ofListing_eq_ok_iff.1 h
    obtain ⟨parts, hparts, hflat⟩ := entriesBlocks_of_plan children hbelow
    rw [Plan.blocks_append, hflat]
    exact .entries hparts (packageBlocks_ofPlain directory children)

theorem entriesBlocks_of_plan (entries : List ListedEntry) {plan : Plan P}
    (h : Plan.ofEntries policy provider.isSource entries = .ok plan)
    : ∃ parts, EntriesBlocks policy provider entries parts ∧ plan.blocks provider = parts.flatten := by
  cases entries with
  | nil =>
    cases h
    exact ⟨[], .nil, rfl⟩
  | cons entry entries =>
    obtain ⟨first, rest, hfirst, hrest, rfl⟩ := Plan.ofEntries_cons_eq_ok_iff.1 h
    obtain ⟨parts, hparts, hflat⟩ := entriesBlocks_of_plan entries hrest
    rw [Plan.blocks_append, hflat]
    cases hadmits : policy.admits provider.isSource entry.toDirEntry with
    | false =>
      rw [ofEntry_of_not_admits hadmits] at hfirst
      cases hfirst
      exact ⟨parts, .skip hadmits hparts, rfl⟩
    | true =>
      exact ⟨_ :: parts, .keep hadmits (entryBlocks_of_plan entry hadmits hfirst) hparts, rfl⟩

theorem entryBlocks_of_plan (entry : ListedEntry) {plan : Plan P}
    (hkept : policy.admits provider.isSource entry.toDirEntry = true)
    (h : Plan.ofEntry policy provider.isSource entry = .ok plan)
    : EntryBlocks policy provider entry (plan.blocks provider) := by
  cases entry with
  | file path =>
    dsimp only [ListedEntry.toDirEntry] at hkept
    rw [Plan.ofEntry, if_pos hkept] at h
    cases h
    cases hset : policy.overrideFor? path with
    | none => exact .plain hset
    | some set => exact .overridden hset (Plan.unitBlocks_singleton (.file path, set))
  | directory path listing =>
    dsimp only [ListedEntry.toDirEntry] at hkept
    rw [Plan.ofEntry, if_pos hkept] at h
    exact .directory (directoryBlocks_of_plan path listing h)

end

end Walk

/--
The law of order. What is scheduled is determined by the listings: a schedule is the row of the blocks for
the root, which no other row is, and which is ordered in each of its blocks. In it, the blocks for each
directory that the walk comes to stand together.
-/
theorem Schedule.ofProject_ordered (policy : Policy P) (provider : Provider U) (s : Schedule U P)
    (h : ofProject policy provider = .ok s)
    : (policy.isIgnored policy.root = true → s = .empty)
        ∧ (policy.isIgnored policy.root = false →
          ∃ blocks, s = ofBlocks blocks
            ∧ (∀ other, DirectoryBlocks policy provider policy.root (provider.listing policy.root) other
                ↔ other = blocks)
            ∧ (∀ block ∈ blocks, block.IsOrdered)
            ∧ ∀ directory listing,
              Visits policy provider policy.root (provider.listing policy.root) directory listing →
                ∃ before own after, blocks = before ++ own ++ after
                  ∧ DirectoryBlocks policy provider directory listing own) := by
  rw [ofProject_eq_plan] at h
  obtain ⟨plan, hplan, rfl⟩ := map_eq_ok_iff.1 h
  unfold Plan.ofProject at hplan
  constructor
  . intro hignored
    rw [if_pos hignored] at hplan
    cases hplan
    rfl
  . intro hkept
    rw [if_neg (by simp [hkept])] at hplan
    have hblocks := directoryBlocks_of_plan _ _ hplan
    refine ⟨plan.blocks provider, ofPlan_eq_ofBlocks plan, ?_, ?_, ?_⟩
    . intro other
      constructor
      . exact hblocks.unique
      . rintro rfl
        exact hblocks
    . intro block hblock
      exact Plan.isOrdered_of_mem_blocks hblock
    . intro directory listing hvisits
      exact hvisits.exists_blocks hblocks

theorem Schedule.ofProject_ordered_sample
    : ∃ s blocks, ofProject samplePolicy sampleProvider = .ok s
        ∧ samplePolicy.isIgnored samplePolicy.root = false ∧ s = ofBlocks blocks
        ∧ blocks.map Block.unit = [[⟨"/p/src/three.rs"⟩], [⟨"/p/two.rs"⟩], [⟨"/p/one.rs"⟩]]
        ∧ s.checks.map (fun check => (check.unit, check.checker.name)) = [(0, "a"), (1, "b"), (2, "a")]
        ∧ ∃ before own after, blocks = before ++ own ++ after
          ∧ DirectoryBlocks samplePolicy sampleProvider ⟨"/p/src"⟩
            (.entries [.file ⟨"/p/src/three.rs"⟩]) own := by
  have hall
      : (ofProject samplePolicy sampleProvider).toOption.map (fun s =>
          (s.units, s.checks.map fun check => (check.unit, check.checker.name)))
        = some ([[⟨"/p/src/three.rs"⟩], [⟨"/p/two.rs"⟩], [⟨"/p/one.rs"⟩]],
          [(0, "a"), (1, "b"), (2, "a")]) := by
    decide +kernel
  obtain ⟨s, hschedule, hall⟩ := Option.map_eq_some_iff.1 hall
  injection hall with hunits hchecks
  rw [toOption_eq_some_iff] at hschedule
  have hkept : samplePolicy.isIgnored samplePolicy.root = false := by
    decide
  obtain ⟨_, hlaw⟩ := ofProject_ordered samplePolicy sampleProvider s hschedule
  obtain ⟨blocks, rfl, _, _, hvisited⟩ := hlaw hkept
  refine ⟨_, blocks, hschedule, hkept, rfl, hunits, hchecks, hvisited _ _ ?_⟩
  refine .through ?_ ?_ (.here _ _)
  . simp
  . decide

end PatternLint
