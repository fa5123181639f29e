import PatternLint.Proofs.Schedule.Visibility

/-!
This module contains the law of coverage. The schedule of a provider that has all units it is asked
for checks every file that the policy lets it see, in one unit and once by each checker in force for
the file, and no other file. A provider that lacks units gives the same schedule without these. Hidden
names that are no texts do not keep files from being seen.
-/

namespace PatternLint

variable {U P : Type}

theorem getElem?_inj_of_pairwise {α : Type} {R : α → α → Prop} {l : List α}
    (h : l.Pairwise fun a b => ¬ R a b) (hsymm : ∀ a b, R a b → R b a) {i j : Nat} {a b : α}
    (hi : l[i]? = some a) (hj : l[j]? = some b) (hR : R a b) : i = j := by
  obtain ⟨hilt, rfl⟩ := List.getElem?_eq_some_iff.1 hi
  obtain ⟨hjlt, rfl⟩ := List.getElem?_eq_some_iff.1 hj
  rw [List.pairwise_iff_getElem] at h
  rcases Nat.lt_trichotomy i j with hlt | heq | hgt
  . exact absurd hR (h i j hilt hjlt hlt)
  . exact heq
  . exact absurd (hsymm _ _ hR) (h j i hjlt hilt hgt)

def ShareFile (files others : List Path) : Prop :=
  ∃ file ∈ files, ∃ other ∈ others, file.isSame other = true

theorem shareFile_symm {files others : List Path} (h : ShareFile files others)
    : ShareFile others files := by
  obtain ⟨file, hfile, other, hother, hsame⟩ := h
  refine ⟨other, hother, file, hfile, ?_⟩
  unfold Path.isSame at hsame ⊢
  simpa [eq_comm] using hsame

namespace Plan

variable {policy : Policy P} {isSource : Path → Bool} {listing : Listing} {plan : Plan P}

theorem pairwise_of_nodup (h : (plan.files.map Path.components).Nodup)
    : plan.Pairwise fun a b => ¬ ShareFile a.1.files b.1.files := by
  unfold Plan.files at h
  rw [List.map_flatMap, List.nodup_flatMap] at h
  apply h.2.imp
  rintro a b hdisjoint ⟨file, hfile, other, hother, hsame⟩
  unfold Path.isSame at hsame
  rw [decide_eq_true_eq] at hsame
  apply hdisjoint (List.mem_map_of_mem hfile)
  rw [hsame]
  exact List.mem_map_of_mem hother

theorem Covers.nodup_requests (h : Covers policy isSource listing plan)
    : (plan.map Prod.fst).Nodup := by
  rw [List.Nodup, List.pairwise_map]
  apply (pairwise_of_nodup h.nodup).imp_of_mem
  intro a b ha _ hshare heq
  apply hshare
  obtain ⟨file, hfile⟩ := List.exists_mem_of_ne_nil _ (h.fair a ha).ne_nil
  refine ⟨file, hfile, file, ?_, by simp [Path.isSame]⟩
  rw [← heq]
  exact hfile

end Plan

namespace Schedule

section Answered

variable {provider : Provider U} {filesOf : U → List Path} {plan : Plan P}

/-- A provider has the planned units, each with the files that it is asked for. -/
def Answers (provider : Provider U) (filesOf : U → List Path) (plan : Plan P) : Prop :=
  ∀ planned ∈ plan, ∃ unit, provider.unit? planned.1 = some unit
    ∧ filesOf unit = planned.1.files

theorem mem_pairs_iff (h : Answers provider filesOf plan) (unit : U) (checker : Checker P)
    : (unit, checker) ∈ (ofPlan provider plan).pairs
        ↔
      ∃ planned ∈ plan, provider.unit? planned.1 = some unit ∧ filesOf unit = planned.1.files
        ∧ checker ∈ planned.2.checkers := by
  rw [pairs_ofPlan, List.mem_flatMap]
  constructor
  . rintro ⟨planned, hmem, hpair⟩
    obtain ⟨answer, hanswer, hfiles⟩ := h planned hmem
    rw [hanswer] at hpair
    obtain ⟨c, hc, heq⟩ := List.mem_map.1 hpair
    injection heq with hunit hchecker
    subst hunit hchecker
    exact ⟨planned, hmem, hanswer, hfiles, hc⟩
  . rintro ⟨planned, hmem, hanswer, _, hchecker⟩
    refine ⟨planned, hmem, ?_⟩
    rw [hanswer]
    exact List.mem_map_of_mem hchecker

theorem pairwise_units (h : Answers provider filesOf plan)
    (hplan : plan.Pairwise fun a b => ¬ ShareFile a.1.files b.1.files)
    : (ofPlan provider plan).units.Pairwise fun u v => ¬ ShareFile (filesOf u) (filesOf v) := by
  rw [units_ofPlan, List.pairwise_filterMap]
  apply hplan.imp_of_mem
  intro a b ha hb hshare u hu v hv
  obtain ⟨unit, hunit, hfiles⟩ := h a ha
  obtain ⟨other, hother, hfiles'⟩ := h b hb
  rw [hunit] at hu
  rw [hother] at hv
  split at hu
  . contradiction
  . split at hv
    . contradiction
    . injection hu with hu
      injection hv with hv
      rw [← hu, ← hv, hfiles, hfiles']
      exact hshare

def Repeats (filesOf : U → List Path) (a b : U × Checker P) : Prop :=
  a.2.name = b.2.name ∧ ShareFile (filesOf a.1) (filesOf b.1)

theorem pairwise_pairs (h : Answers provider filesOf plan)
    (hplan : plan.Pairwise fun a b => ¬ ShareFile a.1.files b.1.files)
    : (ofPlan provider plan).pairs.Pairwise fun a b => ¬ Repeats filesOf a b := by
  rw [pairs_ofPlan, List.pairwise_flatMap]
  constructor
  . intro planned hmem
    obtain ⟨unit, hunit, _⟩ := h planned hmem
    rw [hunit]
    dsimp
    rw [List.pairwise_map]
    apply planned.2.pairwise_checkers.imp
    intro c d hlt hrepeats
    rw [hrepeats.1] at hlt
    simp at hlt
  . apply hplan.imp_of_mem
    intro a b ha hb hshare x hx y hy hrepeats
    obtain ⟨unit, hunit, hfiles⟩ := h a ha
    obtain ⟨other, hother, hfiles'⟩ := h b hb
    rw [hunit] at hx
    rw [hother] at hy
    obtain ⟨c, _, rfl⟩ := List.mem_map.1 hx
    obtain ⟨d, _, rfl⟩ := List.mem_map.1 hy
    apply hshare
    rw [← hfiles, ← hfiles']
    exact hrepeats.2

end Answered

/--
The law of coverage. The plan asks for no unit twice. If the provider has every unit that it is
asked for, then a checker is scheduled for a file exactly if the file is seen and the checker is in
force for it, no two units have a file in common, and no checker is scheduled twice for a file. The
schedule of a provider that lacks units is that of the other planned ones. Of the names that start
with a dot, those that are texts hide what is below them, which are all unless one is half hidden.
-/
theorem ofProject_coverage (policy : Policy P) (provider : Provider U) (filesOf : U → List Path)
    (htree : (provider.listing policy.root).IsTreeAt policy.root)
    : ∃ plan, Plan.ofProject policy provider.isSource (provider.listing policy.root) = .ok plan
        ∧ ofProject policy provider = .ok (ofPlan provider plan)
        ∧ (plan.map Prod.fst).Nodup
        ∧ (Answers provider filesOf plan →
          (∀ file checker,
            (∃ unit, (unit, checker) ∈ (ofPlan provider plan).pairs ∧ file ∈ filesOf unit)
              ↔
            policy.Sees RawText.IsHiddenText provider.isSource (provider.listing policy.root) file
              ∧ checker ∈ (policy.inForce file).checkers)
          ∧ (∀ (i j : Nat) (u v : U), (ofPlan provider plan).units[i]? = some u →
            (ofPlan provider plan).units[j]? = some v → ShareFile (filesOf u) (filesOf v) → i = j)
          ∧ (∀ (i j : Nat) (a b : U × Checker P), (ofPlan provider plan).pairs[i]? = some a →
            (ofPlan provider plan).pairs[j]? = some b → Repeats filesOf a b → i = j))
        ∧ (∀ file, (∀ name, .normal name ∈ policy.way file → ¬ name.IsHalfHidden) →
          (policy.Sees RawText.IsHiddenText provider.isSource (provider.listing policy.root) file
            ↔ policy.Sees RawText.IsHidden provider.isSource (provider.listing policy.root) file))
        ∧ ∀ other : Provider U, other.listing policy.root = provider.listing policy.root →
          other.isSource = provider.isSource →
          (∀ planned ∈ plan, other.unit? planned.1 = none
            ∨ other.unit? planned.1 = provider.unit? planned.1) →
          ofProject policy other
            =
          .ok (ofPlan provider (plan.filter fun planned => (other.unit? planned.1).isSome)) := by
  obtain ⟨plan, hplan, hcovers⟩ := Plan.ofProject_covers provider.isSource htree
  have hdisjoint := Plan.pairwise_of_nodup hcovers.nodup
  refine ⟨plan, hplan, ?_, hcovers.nodup_requests, ?_, fun _ => Policy.sees_isHidden_iff, ?_⟩
  . rw [ofProject_eq_plan, hplan]
    rfl
  . intro hanswers
    refine ⟨?_, ?_, ?_⟩
    . intro file checker
      rw [← hcovers.mem_iff]
      constructor
      . rintro ⟨unit, hpair, hfile⟩
        obtain ⟨planned, hmem, _, hfiles, hchecker⟩ := (mem_pairs_iff hanswers _ _).1 hpair
        rw [hfiles] at hfile
        rw [(hcovers.fair planned hmem).inForce file hfile]
        exact ⟨List.mem_flatMap.2 ⟨planned, hmem, hfile⟩, hchecker⟩
      . rintro ⟨hfile, hchecker⟩
        obtain ⟨planned, hmem, hfile⟩ := List.mem_flatMap.1 hfile
        obtain ⟨unit, hunit, hfiles⟩ := hanswers planned hmem
        rw [(hcovers.fair planned hmem).inForce file hfile] at hchecker
        refine ⟨unit, ?_, ?_⟩
        . exact (mem_pairs_iff hanswers _ _).2 ⟨planned, hmem, hunit, hfiles, hchecker⟩
        . rw [hfiles]
          exact hfile
    . intro i j u v hu hv hshare
      apply getElem?_inj_of_pairwise (pairwise_units hanswers hdisjoint) _ hu hv hshare
      intro a b
      apply shareFile_symm
    . intro i j a b ha hb hrepeats
      apply getElem?_inj_of_pairwise (pairwise_pairs hanswers hdisjoint) _ ha hb hrepeats
      rintro a b ⟨hname, hshare⟩
      exact ⟨hname.symm, shareFile_symm hshare⟩
  . intro other hlisting hsource hunits
    rw [ofProject_eq_plan, hlisting, hsource, hplan]
    exact congrArg Except.ok (ofPlan_eq_filter hunits)

section Sample

def sampleRule (name : String) : Checker Unit :=
  ⟨name, (), "found"⟩

def samplePolicy : Policy Unit where
  root := ⟨"/p"⟩
  budget := .standard
  registry := (CheckerSet.empty.add (sampleRule "a")).add (sampleRule "b")
  ignored := PathSet.ofList [⟨"/p/gen"⟩]
  global := CheckerSet.empty.add (sampleRule "a")
  overrides := SortedMap.empty.insert (Path.components ⟨"/p/two.rs"⟩)
    (⟨"/p/two.rs"⟩, CheckerSet.empty.add (sampleRule "b"))

def sampleListing : Listing :=
  .entries [
    .directory ⟨"/p/.git"⟩ (.entries [.file ⟨"/p/.git/hook.rs"⟩]),
    .directory ⟨"/p/gen"⟩ (.entries [.file ⟨"/p/gen/out.rs"⟩]),
    .file ⟨"/p/one.rs"⟩,
    .file ⟨"/p/one_test.rs"⟩,
    .directory ⟨"/p/src"⟩ (.entries [.file ⟨"/p/src/three.rs"⟩]),
    .file ⟨"/p/two.rs"⟩,
    .directory ⟨"/p/vendor"⟩ (.entries [.file ⟨"/p/vendor/four.rs"⟩])]

def sampleProvider : Provider (List Path) where
  listing _ := sampleListing
  isSource := isSourcePath
  fileUnit? path := some [path]
  packageUnit? _ files := some files

theorem isTreeAt_sample : sampleListing.IsTreeAt samplePolicy.root := by
  refine ⟨by decide, ?_⟩
  refine ⟨⟨⟨".git", rfl⟩, by decide, ⟨"hook.rs", rfl⟩, trivial⟩,
    ⟨⟨"gen", rfl⟩, by decide, ⟨"out.rs", rfl⟩, trivial⟩, ⟨"one.rs", rfl⟩, ⟨"one_test.rs", rfl⟩,
    ⟨⟨"src", rfl⟩, by decide, ⟨"three.rs", rfl⟩, trivial⟩, ⟨"two.rs", rfl⟩,
    ⟨⟨"vendor", rfl⟩, by decide, ⟨"four.rs", rfl⟩, trivial⟩, trivial⟩

theorem sees_sample : samplePolicy.Sees RawText.IsHiddenText isSourcePath sampleListing ⟨"/p/two.rs"⟩ := by
  refine ⟨by decide, by decide, ?_, ?_, by decide⟩
  . intro q hbelow habove
    have hroot : 2 ≤ q.components.length := hbelow.length_le
    have hfile : q.components.length ≤ 3 := habove.length_le
    unfold Policy.isIgnored PathSet.has
    rw [List.prefix_iff_eq_take.1 habove]
    have : q.components.length = 2 ∨ q.components.length = 3 := by omega
    rcases this with h | h
    . rw [h]
      decide
    . rw [h]
      decide
  . intro name hname
    have hway : samplePolicy.way ⟨"/p/two.rs"⟩ = [.normal "two.rs"] := by
      decide
    rw [hway, List.mem_singleton] at hname
    injection hname with hname
    rw [hname]
    decide

theorem ofProject_coverage_sample
    : sampleListing.IsTreeAt samplePolicy.root
        ∧ ∃ s, ofProject samplePolicy sampleProvider = .ok s
          ∧ (∃ unit, (unit, sampleRule "b") ∈ s.pairs ∧ ⟨"/p/two.rs"⟩ ∈ unit)
          ∧ ¬ ∃ unit, (unit, sampleRule "a") ∈ s.pairs ∧ ⟨"/p/gen/out.rs"⟩ ∈ unit := by
  obtain ⟨plan, _, hschedule, _, hanswered, _⟩ :=
    ofProject_coverage samplePolicy sampleProvider id isTreeAt_sample
  have hanswers : Answers sampleProvider id plan := by
    rintro ⟨request, set⟩ _
    cases request with
    | file path => exact ⟨_, rfl, rfl⟩
    | package directory files => exact ⟨_, rfl, rfl⟩
  obtain ⟨hmem, _, _⟩ := hanswered hanswers
  refine ⟨isTreeAt_sample, _, hschedule, ?_, ?_⟩
  . exact (hmem ⟨"/p/two.rs"⟩ (sampleRule "b")).2 ⟨sees_sample, by decide⟩
  . intro hpair
    have hsees := ((hmem ⟨"/p/gen/out.rs"⟩ (sampleRule "a")).1 hpair).1
    have hkept := hsees.kept ⟨"/p/gen"⟩ (by decide) (by decide)
    revert hkept
    decide

def halfHidden : Path :=
  ⟨"/p/." ++ .ofList [0xff]⟩

def halfHiddenProvider : Provider (List Path) where
  listing _ := .entries [.directory halfHidden (.entries [.file (halfHidden.join ⟨"a.rs"⟩)])]
  isSource := isSourcePath
  fileUnit? path := some [path]
  packageUnit? _ files := some files

theorem checked_below_hidden_name
    : (halfHiddenProvider.listing samplePolicy.root).IsTreeAt samplePolicy.root
        ∧ (∀ request, halfHiddenProvider.unit? request = some request.files)
        ∧ (∃ s, ofProject samplePolicy halfHiddenProvider = .ok s
          ∧ ∃ unit, (unit, sampleRule "a") ∈ s.pairs ∧ halfHidden.join ⟨"a.rs"⟩ ∈ unit)
        ∧ ¬ samplePolicy.Sees RawText.IsHidden isSourcePath
          (halfHiddenProvider.listing samplePolicy.root) (halfHidden.join ⟨"a.rs"⟩) := by
  refine ⟨⟨by decide, ⟨⟨_, rfl⟩, by decide, ⟨"a.rs", rfl⟩, trivial⟩, trivial⟩, ?_, ?_, ?_⟩
  . intro request
    cases request <;> rfl
  . exact ⟨_, rfl, [halfHidden.join ⟨"a.rs"⟩], by decide, List.mem_singleton_self _⟩
  . intro hsees
    exact hsees.shown (.ofList [Path.dot, 0xff]) (by decide) (by decide)

end Sample

end Schedule

end PatternLint
