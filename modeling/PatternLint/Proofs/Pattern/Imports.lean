import Mathlib.Algebra.Order.BigOperators.Group.List
import Mathlib.Algebra.Order.Group.Nat
import Mathlib.Data.List.DropRight
import Mathlib.Logic.Relation
import PatternLint.Proofs.Pattern.Search
import PatternLint.Proofs.Syntax.UseGroup

/-!
This module contains how the search sees grouped imports. The rules of the language turn a declaration
into flat ones, one for each path. What is found stays the same under all of them but one: `self` in a
group is taken for a name, and not for the path before it.
-/

namespace PatternLint

namespace Syntax

namespace UseTree

/-- One rule of the language, applied at some place of an import, which may make several of it. -/
inductive Rewrites : UseTree → List UseTree → Prop where
  | group (items : List UseTree) : Rewrites (.group items) items
  | rename (last : Name) : Rewrites (.rename last) [.name last]
  -- After a path, `self` is that path.
  | self (first : Name) {last : Name} : last.text = "self" →
    Rewrites (.path first (.name last)) [.name first]
  | path (first : Name) {rest : UseTree} {trees : List UseTree} : Rewrites rest trees →
    Rewrites (.path first rest) (trees.map (.path first))
  | item (before after : List UseTree) {tree : UseTree} {trees : List UseTree} : Rewrites tree trees →
    Rewrites (.group (before ++ tree :: after)) [.group (before ++ trees ++ after)]

inductive Rewritten : List UseTree → List UseTree → Prop where
  | mk (before after : List UseTree) {tree : UseTree} {trees : List UseTree} : Rewrites tree trees →
    Rewritten (before ++ tree :: after) (before ++ trees ++ after)

inductive IsFlat : UseTree → Prop where
  | name (last : Name) : IsFlat (.name last)
  | glob (star : Location) : IsFlat (.glob star)
  | path (first : Name) {rest : UseTree} : IsFlat rest →
    (∀ last, rest = .name last → last.text ≠ "self") → IsFlat (.path first rest)

def chain : UseTree → List String
  | .path first rest => first.text :: chain rest
  | .name last => [last.text]
  | .rename last => [last.text]
  | .glob _ => ["*"]
  | .group _ => []

def paths (tree : UseTree) : List (List String) :=
  tree.leaves.map Leaf.path

def allPaths (trees : List UseTree) : List (List String) :=
  trees.flatMap paths

def withoutSelf : List String → List String
  | [] => []
  | first :: names => first :: names.rdropWhile (· = "self")

def EndsInSelf (path : List String) : Prop :=
  ∃ names, names ≠ [] ∧ path = names ++ ["self"]

def allTexts (trees : List UseTree) : List String :=
  trees.flatMap fun tree => tree.leaves.map Leaf.text

def allFound {n : Nat} (p : NodePattern) (trees : List UseTree) : List Location :=
  trees.flatMap fun tree => (Tree.node (.useDeclaration tree) [] : Tree n).found p

/-! ### Paths -/

mutual

theorem leavesBelow_eq_map (before : List String)
    : ∀ tree : UseTree, tree.leavesBelow before = (tree.leavesBelow []).map (Leaf.below before)
  | .path first rest => by
    rw [leavesBelow, leavesBelow, leavesBelow_eq_map (before ++ [first.text]) rest,
      leavesBelow_eq_map ([] ++ [first.text]) rest, List.map_map]
    congr 1
    funext leaf
    simp [Leaf.below]
  | .name last => by simp [leavesBelow, Leaf.below]
  | .rename last => by simp [leavesBelow, Leaf.below]
  | .glob star => by simp [leavesBelow, Leaf.below]
  | .group items => listLeavesBelow_eq_map before items

theorem listLeavesBelow_eq_map (before : List String)
    : ∀ items : List UseTree,
        listLeavesBelow before items = (listLeavesBelow [] items).map (Leaf.below before)
  | [] => rfl
  | item :: items => by
    rw [listLeavesBelow, listLeavesBelow, List.map_append, ← leavesBelow_eq_map before item,
      ← listLeavesBelow_eq_map before items]

end

@[simp]
theorem paths_path (first : Name) (rest : UseTree)
    : (UseTree.path first rest).paths = rest.paths.map (first.text :: ·) := by
  unfold paths leaves
  rw [leavesBelow, leavesBelow_eq_map, List.map_map, List.map_map]
  rfl

@[simp]
theorem paths_group (items : List UseTree) : (UseTree.group items).paths = allPaths items := by
  unfold paths leaves
  rw [leavesBelow]
  induction items with
  | nil => rfl
  | cons item items ih =>
    rw [listLeavesBelow, List.map_append, ih]
    rfl

@[simp]
theorem allPaths_append (trees others : List UseTree)
    : allPaths (trees ++ others) = allPaths trees ++ allPaths others := by
  apply List.flatMap_append

@[simp]
theorem allPaths_cons (tree : UseTree) (trees : List UseTree)
    : allPaths (tree :: trees) = tree.paths ++ allPaths trees := by
  rfl

@[simp]
theorem allPaths_nil : allPaths [] = [] := by
  rfl

@[simp]
theorem allPaths_map_path (first : Name) (trees : List UseTree)
    : allPaths (trees.map (.path first)) = (allPaths trees).map (first.text :: ·) := by
  induction trees with
  | nil => rfl
  | cons tree trees ih => simp [ih]

/-! ### One step -/

def Keeps (path path' : List String) : Prop :=
  path' = path ∨ path' ≠ [] ∧ path = path' ++ ["self"]

theorem Keeps.cons {path path' : List String} (h : Keeps path path') (name : String)
    : Keeps (name :: path) (name :: path') := by
  rcases h with rfl | ⟨_, rfl⟩
  . exact .inl rfl
  . exact .inr ⟨by simp, by simp⟩

theorem forall₂_keeps_refl (paths : List (List String)) : List.Forall₂ Keeps paths paths := by
  rw [List.forall₂_same]
  exact fun path _ => .inl rfl

theorem Rewrites.keeps {tree : UseTree} {trees : List UseTree} (h : Rewrites tree trees)
    : List.Forall₂ Keeps tree.paths (allPaths trees) := by
  induction h with
  | group items =>
    rw [paths_group]
    exact forall₂_keeps_refl _
  | rename last => exact forall₂_keeps_refl _
  | self first hself => exact .cons (.inr ⟨by simp, by simp [hself]⟩) .nil
  | path first _ ih =>
    rw [paths_path, allPaths_map_path, List.forall₂_map_left_iff, List.forall₂_map_right_iff]
    exact ih.imp fun path path' hkeeps => hkeeps.cons first.text
  | item before after _ ih =>
    simp only [paths_group, allPaths_cons, allPaths_append, allPaths_nil, List.append_nil, List.append_assoc]
    exact List.rel_append (forall₂_keeps_refl _) (List.rel_append ih (forall₂_keeps_refl _))

theorem Rewritten.keeps {trees trees' : List UseTree} (h : Rewritten trees trees')
    : List.Forall₂ Keeps (allPaths trees) (allPaths trees') := by
  obtain ⟨before, after, hrewrites⟩ := h
  simp only [allPaths_append, allPaths_cons, List.append_assoc]
  exact List.rel_append (forall₂_keeps_refl _) (List.rel_append hrewrites.keeps (forall₂_keeps_refl _))

theorem withoutSelf_append_self {path : List String} (h : path ≠ [])
    : withoutSelf (path ++ ["self"]) = withoutSelf path := by
  cases path with
  | nil => contradiction
  | cons first names =>
    rw [List.cons_append, withoutSelf, List.rdropWhile_concat_pos _ _ _ (by simp)]
    rfl

theorem Keeps.withoutSelf_eq {path path' : List String} (h : Keeps path path')
    : withoutSelf path = withoutSelf path' := by
  rcases h with rfl | ⟨hne, rfl⟩
  . rfl
  . rw [withoutSelf_append_self hne]

theorem eq_of_forall₂_keeps {paths paths' : List (List String)} (h : List.Forall₂ Keeps paths paths')
    (hself : ∀ path ∈ paths, ¬ EndsInSelf path) : paths' = paths := by
  induction h with
  | nil => rfl
  | cons hfirst _ ih =>
    rw [List.forall_mem_cons] at hself
    rw [ih hself.2, hfirst.resolve_right fun ⟨hne, hpath⟩ => hself.1 ⟨_, hne, hpath⟩]

/-! ### A whole run of steps -/

section Run

variable {trees trees' : List UseTree}

theorem map_withoutSelf_of_run (h : Relation.ReflTransGen Rewritten trees trees')
    : (allPaths trees').map withoutSelf = (allPaths trees).map withoutSelf := by
  induction h with
  | refl => rfl
  | tail _ hstep ih =>
    rw [← ih, eq_comm, ← List.forall₂_eq_eq_eq, List.forall₂_map_left_iff, List.forall₂_map_right_iff]
    exact hstep.keeps.imp fun path path' hkeeps => hkeeps.withoutSelf_eq

theorem allPaths_of_run (h : Relation.ReflTransGen Rewritten trees trees')
    (hself : ∀ path ∈ allPaths trees, ¬ EndsInSelf path) : allPaths trees' = allPaths trees := by
  induction h with
  | refl => rfl
  | tail _ hstep ih =>
    rw [← ih] at hself ⊢
    exact eq_of_forall₂_keeps hstep.keeps hself

end Run

/-! ### What is found -/

theorem allTexts_eq (trees : List UseTree) : allTexts trees = (allPaths trees).map ("::".intercalate) := by
  unfold allTexts allPaths paths
  rw [List.map_flatMap]
  simp only [List.map_map]
  rfl

theorem length_found {n : Nat} (p : NodePattern) (tree : UseTree)
    : ((Tree.node (.useDeclaration tree) [] : Tree n).found p).length
        =
      tree.paths.countP fun path => p.accepts .useLeaf ("::".intercalate path) := by
  have hhead : (Tree.node (.useDeclaration tree) [] : Tree n).found p
      = Head.found p [] (.useDeclaration tree : Head n) := by
    cases n <;> simp [Tree.found, Tree.foundWith, Tree.foundInListWith]
  rw [hhead, Head.found]
  split
  . rw [Head.flatMap_check, List.length_map, ← List.countP_eq_length_filter, paths, List.countP_map]
    rfl
  . next hwants =>
    rw [eq_comm, List.length_nil, List.countP_eq_zero]
    intro path _ haccepts
    exact hwants (NodePattern.Accepts.wants ((NodePattern.accepts_iff ⟨_, _, .start⟩).1 haccepts))

theorem length_allFound {n : Nat} (p : NodePattern) (trees : List UseTree)
    : (allFound (n := n) p trees).length
        =
      (allPaths trees).countP fun path => p.accepts .useLeaf ("::".intercalate path) := by
  unfold allFound allPaths
  rw [List.length_flatMap, List.countP_flatMap]
  simp only [length_found]
  rfl

/-! ### Flat imports -/

def belowName (first : Name) : UseTree → UseTree
  | .name last => if last.text = "self" then .name first else .path first (.name last)
  | rest => .path first rest

mutual

def flatForm : UseTree → List UseTree
  | .path first rest => (flatForm rest).map (belowName first)
  | .name last => [.name last]
  | .rename last => [.name last]
  | .glob star => [.glob star]
  | .group items => flatForms items

def flatForms : List UseTree → List UseTree
  | [] => []
  | tree :: trees => flatForm tree ++ flatForms trees

end

theorem IsFlat.belowName {rest : UseTree} (h : IsFlat rest) (first : Name)
    : IsFlat (rest.belowName first) := by
  unfold UseTree.belowName
  split
  . next last =>
    split
    . exact .name first
    . next hself => exact .path first h (by rintro _ ⟨⟩; exact hself)
  . next hname => exact .path first h fun last hlast => absurd hlast (hname last)

mutual

theorem isFlat_of_mem_flatForm {flat : UseTree} : ∀ tree : UseTree, flat ∈ tree.flatForm → IsFlat flat
  | .path first rest => by
    rw [flatForm, List.mem_map]
    rintro ⟨inner, hinner, rfl⟩
    exact (isFlat_of_mem_flatForm rest hinner).belowName first
  | .name last => by
    rw [flatForm, List.mem_singleton]
    rintro rfl
    exact .name last
  | .rename last => by
    rw [flatForm, List.mem_singleton]
    rintro rfl
    exact .name last
  | .glob star => by
    rw [flatForm, List.mem_singleton]
    rintro rfl
    exact .glob star
  | .group items => isFlat_of_mem_flatForms items

theorem isFlat_of_mem_flatForms {flat : UseTree}
    : ∀ trees : List UseTree, flat ∈ flatForms trees → IsFlat flat
  | [] => nofun
  | tree :: trees => by
    rw [flatForms, List.mem_append]
    rintro (h | h)
    . exact isFlat_of_mem_flatForm tree h
    . exact isFlat_of_mem_flatForms trees h

end

abbrev Becomes (trees trees' : List UseTree) : Prop :=
  Relation.ReflTransGen Rewritten trees trees'

theorem Becomes.of_rewrites {tree : UseTree} {trees : List UseTree} (h : Rewrites tree trees)
    : Becomes [tree] trees := by
  have := Rewritten.mk [] [] h
  rw [List.nil_append, List.nil_append, List.append_nil] at this
  exact .single this

theorem Becomes.append {trees trees' others others' : List UseTree} (h : Becomes trees trees')
    (hothers : Becomes others others') : Becomes (trees ++ others) (trees' ++ others') := by
  have hleft : Becomes (trees ++ others) (trees' ++ others) := by
    refine h.lift (· ++ others) ?_
    rintro _ _ ⟨before, after, hrewrites⟩
    have := Rewritten.mk before (after ++ others) hrewrites
    simpa [Function.onFun] using this
  refine hleft.trans (hothers.lift (trees' ++ ·) ?_)
  rintro _ _ ⟨before, after, hrewrites⟩
  have := Rewritten.mk (trees' ++ before) after hrewrites
  simpa [Function.onFun] using this

theorem Becomes.map_path {trees trees' : List UseTree} (h : Becomes trees trees') (first : Name)
    : Becomes (trees.map (.path first)) (trees'.map (.path first)) := by
  refine h.lift (List.map (UseTree.path first)) ?_
  rintro _ _ ⟨before, after, hrewrites⟩
  have := Rewritten.mk (before.map (.path first)) (after.map (.path first)) (hrewrites.path first)
  simpa [Function.onFun] using this

theorem becomes_belowName (first : Name) (rest : UseTree)
    : Becomes [.path first rest] [rest.belowName first] := by
  unfold belowName
  split
  . split
    . next hself => exact .of_rewrites (.self first hself)
    . exact .refl
  . exact .refl

theorem becomes_map_belowName (first : Name) (trees : List UseTree)
    : Becomes (trees.map (.path first)) (trees.map (belowName first)) := by
  induction trees with
  | nil => exact .refl
  | cons tree trees ih => exact (becomes_belowName first tree).append ih

mutual

theorem becomes_flatForm : ∀ tree : UseTree, Becomes [tree] tree.flatForm
  | .path first rest => by
    rw [flatForm]
    exact ((becomes_flatForm rest).map_path first).trans (becomes_map_belowName first _)
  | .name _ => .refl
  | .rename last => .of_rewrites (.rename last)
  | .glob _ => .refl
  | .group items => (Becomes.of_rewrites (.group items)).trans (becomes_flatForms items)

theorem becomes_flatForms : ∀ trees : List UseTree, Becomes trees (flatForms trees)
  | [] => .refl
  | tree :: trees => (becomes_flatForm tree).append (becomes_flatForms trees)

end

/-! ### Where `self` makes a difference -/

theorem withoutSelf_eq_self {path : List String} (h : ¬ EndsInSelf path) : withoutSelf path = path := by
  cases path with
  | nil => rfl
  | cons first names =>
    rw [withoutSelf, List.rdropWhile_eq_self_iff.2]
    intro hne hlast
    apply h
    rw [decide_eq_true_eq] at hlast
    refine ⟨first :: names.dropLast, by simp, ?_⟩
    rw [List.cons_append, ← hlast, List.dropLast_append_getLast]

theorem isPrefix_withoutSelf (path : List String) : withoutSelf path <+: path := by
  cases path with
  | nil => exact List.prefix_refl _
  | cons first names => exact List.cons_prefix_cons.2 ⟨rfl, List.rdropWhile_prefix _ _⟩

theorem endsInSelf_iff {path : List String} : EndsInSelf path ↔ withoutSelf path ≠ path := by
  constructor
  . rintro ⟨names, hne, rfl⟩ heq
    rw [withoutSelf_append_self hne] at heq
    have hle := (isPrefix_withoutSelf names).length_le
    rw [heq, List.length_append] at hle
    simp at hle
  . intro hne
    by_contra hself
    exact hne (withoutSelf_eq_self hself)

instance : DecidablePred EndsInSelf :=
  fun _ => decidable_of_iff' _ endsInSelf_iff

theorem not_endsInSelf_singleton (name : String) : ¬ EndsInSelf [name] := by
  rintro ⟨names, hne, hpath⟩
  cases names with
  | nil => contradiction
  | cons first names => simp at hpath

theorem IsFlat.chain_ne_nil {tree : UseTree} (h : IsFlat tree) : tree.chain ≠ [] := by
  cases h <;> exact List.cons_ne_nil _ _

theorem IsFlat.exists_name_of_chain {tree : UseTree} (h : IsFlat tree) (hchain : tree.chain = ["self"])
    : ∃ last, tree = .name last ∧ last.text = "self" := by
  cases h with
  | name last => exact ⟨last, rfl, by simpa [chain] using hchain⟩
  | glob star => simp [chain] at hchain
  | path first hrest _ => exact absurd (List.cons.inj hchain).2 hrest.chain_ne_nil

theorem IsFlat.not_endsInSelf {tree : UseTree} (h : IsFlat tree) : ¬ EndsInSelf tree.chain := by
  induction h with
  | name last => apply not_endsInSelf_singleton
  | glob star => apply not_endsInSelf_singleton
  | path first hrest hname ih =>
    rintro ⟨names, hnames, hchain⟩
    cases names with
    | nil => contradiction
    | cons other names =>
      obtain ⟨_, hchain⟩ := List.cons_eq_cons.1 hchain
      by_cases hnil : names = []
      . rw [hnil] at hchain
        obtain ⟨last, hrest, hlast⟩ := hrest.exists_name_of_chain hchain
        exact hname last hrest hlast
      . exact ih ⟨names, hnil, hchain⟩

theorem IsFlat.paths_eq {tree : UseTree} (h : IsFlat tree) : tree.paths = [tree.chain] := by
  induction h with
  | name last => rfl
  | glob star => rfl
  | path first _ _ ih =>
    rw [paths_path, ih]
    rfl

theorem allPaths_of_isFlat {trees : List UseTree} (h : ∀ tree ∈ trees, IsFlat tree)
    : allPaths trees = trees.map chain := by
  unfold allPaths
  rw [List.flatMap_congr fun tree htree => (h tree htree).paths_eq]
  exact List.flatMap_pure_eq_map chain trees

theorem map_withoutSelf_of_isFlat {trees : List UseTree} (h : ∀ tree ∈ trees, IsFlat tree)
    : (allPaths trees).map withoutSelf = allPaths trees := by
  rw [allPaths_of_isFlat h, List.map_map]
  apply List.map_congr_left
  intro tree htree
  exact withoutSelf_eq_self (h tree htree).not_endsInSelf

theorem withoutSelf_ne_nil {path : List String} (h : path ≠ []) : withoutSelf path ≠ [] := by
  cases path with
  | nil => contradiction
  | cons first names => exact List.cons_ne_nil _ _

theorem length_text_withoutSelf_le (path : List String)
    : ("::".intercalate (withoutSelf path)).length ≤ ("::".intercalate path).length := by
  by_cases hpath : path = []
  . rw [hpath]
    rfl
  . obtain ⟨dropped, hdropped⟩ := isPrefix_withoutSelf path
    by_cases hnone : dropped = []
    . rw [hnone, List.append_nil] at hdropped
      rw [hdropped]
    . conv => rhs; rw [← hdropped, String.intercalate_append_of_ne_nil (withoutSelf_ne_nil hpath) hnone]
      simp only [String.length_append]
      omega

theorem length_text_withoutSelf_lt {path : List String} (h : EndsInSelf path)
    : ("::".intercalate (withoutSelf path)).length < ("::".intercalate path).length := by
  obtain ⟨names, hne, rfl⟩ := h
  have hle := length_text_withoutSelf_le names
  rw [withoutSelf_append_self hne, String.intercalate_append_of_ne_nil hne (by simp)]
  simp only [String.length_append]
  have hcolons : "::".length = 2 := rfl
  omega

theorem perm_allTexts_iff {trees trees' : List UseTree} (h : Becomes trees trees')
    (hflat : ∀ tree ∈ trees', IsFlat tree)
    : (allTexts trees').Perm (allTexts trees) ↔ ∀ path ∈ allPaths trees, ¬ EndsInSelf path := by
  have hpaths : allPaths trees' = (allPaths trees).map withoutSelf := by
    rw [← map_withoutSelf_of_run h, map_withoutSelf_of_isFlat hflat]
  constructor
  . intro hperm path hpath hself
    have hsum := (hperm.map String.length).sum_eq
    rw [allTexts_eq, allTexts_eq, hpaths, List.map_map, List.map_map, List.map_map] at hsum
    have hlt := List.sum_lt_sum _ _ (fun path _ => length_text_withoutSelf_le path)
      ⟨path, hpath, length_text_withoutSelf_lt hself⟩
    exact absurd hsum hlt.ne
  . intro hself
    rw [allTexts_eq, allTexts_eq, allPaths_of_run h hself]

end UseTree

end Syntax

open Syntax Syntax.UseTree

/--
What is imported is the same for declarations and what they become. What is found is the same if `self`
is in no group, and flat declarations, each of which is found as it is written, are found the same only
then. Two colons at the start do not count, but a declaration that is accepted is not read as imports if
some member of a group starts with them.
-/
theorem NodePattern.sees_through_groups (trees trees' : List UseTree) (h : Becomes trees trees')
    : (allPaths trees').map withoutSelf = (allPaths trees).map withoutSelf
        ∧ ((∀ path ∈ allPaths trees, ¬ EndsInSelf path) →
          allTexts trees' = allTexts trees
            ∧ ∀ (n : Nat) (p : NodePattern),
              (allFound (n := n) p trees').length = (allFound (n := n) p trees).length)
        ∧ ((∀ tree ∈ trees', IsFlat tree) →
          allTexts trees' = trees'.map (fun tree => "::".intercalate tree.chain)
            ∧ (∀ (n : Nat) (p : NodePattern),
              (allFound (n := n) p trees').length
                = trees'.countP fun tree => p.accepts .useLeaf ("::".intercalate tree.chain))
            ∧ ((allTexts trees').Perm (allTexts trees) ↔ ∀ path ∈ allPaths trees, ¬ EndsInSelf path))
        ∧ (Becomes trees (flatForms trees) ∧ ∀ flat ∈ flatForms trees, IsFlat flat)
        ∧ (∀ (n : Nat) (g : Grammar.Nested n) (rooted plain after : Input n) (declaration : Tree n),
          Grammar.DiffersInColons rooted plain →
            (Grammar.useDeclaration g rooted = .ok (some declaration, after)
              ↔ Grammar.useDeclaration g plain = .ok (some declaration, after)))
        ∧ ∀ (n : Nat) (g : Grammar.Nested n) (input after : Input n) (declaration? : Option (Tree n)),
          Grammar.useDeclaration g input = .ok (declaration?, after) →
            ∃ declared, Grammar.Declares declared input after
              ∧ (declaration? = none ↔ HasRootedMember declared) := by
  refine ⟨map_withoutSelf_of_run h, ?_, ?_, ?_, ?_, ?_⟩
  . intro hself
    have hpaths := allPaths_of_run h hself
    refine ⟨by rw [allTexts_eq, allTexts_eq, hpaths], ?_⟩
    intro n p
    rw [length_allFound, length_allFound, hpaths]
  . intro hflat
    refine ⟨?_, ?_, perm_allTexts_iff h hflat⟩
    . rw [allTexts_eq, allPaths_of_isFlat hflat, List.map_map]
      rfl
    . intro n p
      rw [length_allFound, allPaths_of_isFlat hflat, List.countP_map]
      rfl
  . exact ⟨becomes_flatForms trees, fun flat => isFlat_of_mem_flatForms trees⟩
  . intro n g rooted plain after declaration hcolons
    exact Grammar.useDeclaration_iff_of_colons g hcolons
  . intro n g input after declaration? h
    exact Grammar.useDeclaration_declares g h

def sampleImport : UseTree :=
  .path ⟨"std", .start⟩ (.group [
    .path ⟨"fs", .start⟩ (.group [.name ⟨"read", .start⟩, .rename ⟨"write", .start⟩]),
    .path ⟨"io", .start⟩ (.glob .start)])

def selfImport : UseTree :=
  .path ⟨"std", .start⟩ (.path ⟨"fs", .start⟩ (.group [.name ⟨"self", .start⟩]))

theorem NodePattern.sees_through_groups_sample
    : Becomes [sampleImport] (flatForms [sampleImport])
        ∧ allTexts (flatForms [sampleImport]) = allTexts [sampleImport]
        ∧ allTexts [sampleImport] = ["std::fs::read", "std::fs::write", "std::io::*"] := by
  have hrun := becomes_flatForms [sampleImport]
  have hfound := (sees_through_groups [sampleImport] (flatForms [sampleImport]) hrun).2.1
  exact ⟨hrun, (hfound (by decide +kernel)).1, by decide +kernel⟩

def NodePattern.countIn? (pattern source : String) : Option Nat := do
  let p ← (NodePattern.parse pattern).toOption
  let tree ← (Tree.ofSource source).toOption
  return (p.find tree).length

-- The first colons do not count, those inside the group keep its members from being imports.
example : NodePattern.countIn? "use(std::fs)" "use ::{std::fs};" = some 1
    ∧ NodePattern.countIn? "use(std::fs)" "use {::std::fs};" = some 0 := by
  decide +kernel

theorem NodePattern.self_in_group_is_missed
    : Becomes [selfImport] [.path ⟨"std", .start⟩ (.name ⟨"fs", .start⟩)]
        ∧ allTexts [selfImport] = ["std::fs::self"]
        ∧ allTexts [.path ⟨"std", .start⟩ (.name ⟨"fs", .start⟩)] = ["std::fs"]
        ∧ countIn? "use(std::fs)" "use std::fs::{self};" = some 0
        ∧ countIn? "use(std::fs)" "use std::fs;" = some 1 := by
  refine ⟨becomes_flatForms [selfImport], ?_, ?_, ?_, ?_⟩
  . decide +kernel
  . decide +kernel
  . decide +kernel
  . decide +kernel

end PatternLint
