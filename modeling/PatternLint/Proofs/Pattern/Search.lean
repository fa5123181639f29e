import PatternLint.Source.Load
import PatternLint.Proofs.ListsOnce

/-!
This module contains the law of the search: it reports each node of a file that a pattern accepts
once, wherever the node stands, and nothing else. Which nodes there are is said by relations that
know of no pattern and of no order in which a search goes.
-/

namespace PatternLint

namespace Syntax

structure Node where
  kind : NodeKind
  subject : String
  location : Location
  deriving DecidableEq, Repr

inductive Address where
  | here (route : List Nat)
  | child (i : Nat) (rest : Address)
  | argument (i : Nat) (rest : Address)
  deriving DecidableEq, Repr

inductive UseTree.HasLeaf : UseTree → List Nat → Leaf → Prop where
  | name (last : Name) : HasLeaf (.name last) [] ⟨[last.text], last.location⟩
  | rename (last : Name) : HasLeaf (.rename last) [] ⟨[last.text], last.location⟩
  | glob (star : Location) : HasLeaf (.glob star) [] ⟨["*"], star⟩
  | path {first : Name} {rest : UseTree} {route : List Nat} {leaf : Leaf} :
    rest.HasLeaf route leaf →
      HasLeaf (.path first rest) route ⟨first.text :: leaf.path, leaf.location⟩
  | group {items : List UseTree} {i : Nat} {item : UseTree} {route : List Nat} {leaf : Leaf} :
    items[i]? = some item → item.HasLeaf route leaf → HasLeaf (.group items) (i :: route) leaf

inductive Head.HasNode {n : Nat} (children : List (Tree n)) : Head n → List Nat → Node → Prop where
  | function (name : Name) :
    HasNode children (.function name) [] ⟨.function, name.text, name.location⟩
  | struct (name : Name) : HasNode children (.struct name) [] ⟨.struct, name.text, name.location⟩
  | enum (name : Name) : HasNode children (.enum name) [] ⟨.enum, name.text, name.location⟩
  | trait (name : Name) : HasNode children (.trait name) [] ⟨.trait, name.text, name.location⟩
  | methodCall (method : Name) :
    HasNode children (.methodCall method) [] ⟨.methodCall, method.text, method.location⟩
  | call {first : Name} {names : List Name} {below arguments : List (Tree n)} :
    children = .node (.path (first :: names)) below :: arguments →
      HasNode children .call [] ⟨.call, pathText (first :: names), first.location⟩
  | macroCall (first : Name) (names : List Name) (body : MacroBody n) :
    HasNode children (.macroCall (first :: names) body) []
      ⟨.macroCall, pathText (first :: names), first.location⟩
  | useLeaf {tree : UseTree} {route : List Nat} {leaf : UseTree.Leaf} :
    tree.HasLeaf route leaf →
      HasNode children (.useDeclaration tree) route ⟨.useLeaf, leaf.text, leaf.location⟩
  | unsafeBlock (keyword : Location) :
    HasNode children (.unsafeBlock keyword) [] ⟨.unsafeBlock, "", keyword⟩

/-- A tree has a node at an address: at its head, in a child, or in the body of a macro call. -/
inductive Tree.HasNode : {n : Nat} → Tree n → Address → Node → Prop where
  | here {n : Nat} {head : Head n} {children : List (Tree n)} {route : List Nat} {node : Node} :
    head.HasNode children route node → HasNode (.node head children) (.here route) node
  | child {n : Nat} {head : Head n} {children : List (Tree n)} {i : Nat} {t : Tree n}
      {rest : Address} {node : Node} :
    children[i]? = some t → t.HasNode rest node →
      HasNode (.node head children) (.child i rest) node
  | argument {n : Nat} {path : List Name} {body : MacroBody (n + 1)}
      {children : List (Tree (n + 1))} {arguments : List (Tree n)} {i : Nat} {t : Tree n}
      {rest : Address} {node : Node} :
    body.arguments? = some arguments → arguments[i]? = some t → t.HasNode rest node →
      HasNode (.node (.macroCall path body) children) (.argument i rest) node

end Syntax

open Syntax (Node Address Name Tree Head MacroBody UseTree pathText)

namespace NodePattern

variable {p : NodePattern}

def Accepts (p : NodePattern) (node : Node) : Prop :=
  ∃ term ∈ p.terms, term.kind = node.kind ∧ term.argument.accepts node.subject = true

abbrev Reports {ι : Type} (p : NodePattern) (R : ι → Node → Prop) (l : List Location) : Prop :=
  ListsOnce (fun i node => R i node ∧ p.Accepts node) Node.location l

theorem accepts_iff (node : Node)
    : p.accepts node.kind node.subject = true ↔ p.Accepts node := by
  simp [accepts, Accepts, Term.accepts]

theorem Accepts.wants {node : Node} (h : p.Accepts node) : p.wants node.kind = true := by
  obtain ⟨term, mem, sameKind, -⟩ := h
  simpa [NodePattern.wants] using ⟨term, mem, sameKind⟩

theorem reports_wanted {ι : Type} {R : ι → Node → Prop} {kind : NodeKind} {l : List Location}
    (sameKind : ∀ i node, R i node → node.kind = kind) (listed : p.Reports R l)
    : p.Reports R (if p.wants kind then l else []) := by
  split
  case isTrue => exact listed
  case isFalse unwanted =>
    refine .nil fun i node ⟨holds, accepted⟩ => unwanted ?_
    rw [← sameKind i node holds]
    exact accepted.wants

end NodePattern

namespace Syntax

namespace UseTree

def Leaf.below (before : List String) (leaf : Leaf) : Leaf :=
  ⟨before ++ leaf.path, leaf.location⟩

theorem hasLeaf_path_iff {first : Name} {rest : UseTree} {route : List Nat} {leaf : Leaf}
    : (UseTree.path first rest).HasLeaf route leaf
        ↔ ∃ inner, rest.HasLeaf route inner ∧ leaf = inner.below [first.text] := by
  constructor
  . rintro (_ | _ | _ | h)
    exact ⟨_, h, rfl⟩
  . rintro ⟨inner, h, rfl⟩
    exact .path h

theorem hasLeaf_group_iff {items : List UseTree} {route : List Nat} {leaf : Leaf}
    : (UseTree.group items).HasLeaf route leaf
        ↔ ∃ i, route = i.1 :: i.2 ∧ Among HasLeaf items i leaf := by
  constructor
  . rintro (_ | _ | _ | _ | ⟨found, h⟩)
    exact ⟨(_, _), rfl, _, found, h⟩
  . rintro ⟨i, rfl, item, found, h⟩
    exact .group found h

theorem lists_leaf {tree : UseTree} {leaf : Leaf} (before : List String)
    (h : tree.HasLeaf [] leaf)
    (alone : ∀ route other, tree.HasLeaf route other → route = [] ∧ other = leaf)
    : ListsOnce tree.HasLeaf (Leaf.below before) [leaf.below before] := by
  refine .singleton (j := []) fun route other => ⟨alone route other, ?_⟩
  rintro ⟨rfl, rfl⟩
  exact h

mutual

theorem lists_leavesBelow (before : List String)
    : ∀ tree : UseTree, ListsOnce tree.HasLeaf (Leaf.below before) (tree.leavesBelow before)
  | .path first rest => by
    have inner := lists_leavesBelow (before ++ [first.text]) rest
    have assoc : Leaf.below (before ++ [first.text])
        = fun leaf => (leaf.below [first.text]).below before := by
      funext leaf
      simp [Leaf.below]
    rw [assoc] at inner
    exact (inner.image (Leaf.below [first.text])).congr fun _ _ => hasLeaf_path_iff
  | .name last => lists_leaf before (.name last) (by rintro _ _ ⟨⟩; exact ⟨rfl, rfl⟩)
  | .rename last => lists_leaf before (.rename last) (by rintro _ _ ⟨⟩; exact ⟨rfl, rfl⟩)
  | .glob star => lists_leaf before (.glob star) (by rintro _ _ ⟨⟩; exact ⟨rfl, rfl⟩)
  | .group items => by
    have inner := lists_listLeavesBelow before items
    refine (inner.reindex (fun i => i.1 :: i.2) ?_).congr fun _ _ => hasLeaf_group_iff
    simp [Prod.ext_iff]

theorem lists_listLeavesBelow (before : List String)
    : ∀ items : List UseTree,
        ListsOnce (Among HasLeaf items) (Leaf.below before) (listLeavesBelow before items)
  | [] => .among_nil
  | item :: items =>
    .among_cons (lists_leavesBelow before item) (lists_listLeavesBelow before items)

end

theorem lists_leaves (tree : UseTree) : ListsOnce tree.HasLeaf id tree.leaves :=
  lists_leavesBelow [] tree

end UseTree

namespace Head

variable {n : Nat} {children : List (Tree n)} {p : NodePattern}

theorem HasNode.unique {head : Head n} {route route' : List Nat} {node node' : Node}
    (notImport : ∀ tree, head ≠ .useDeclaration tree) (h : head.HasNode children route node)
    (h' : head.HasNode children route' node') : route' = route ∧ node' = node := by
  cases h with
  | useLeaf => exact absurd rfl (notImport _)
  | call callee =>
    cases h' with
    | call callee' =>
      cases callee.symm.trans callee'
      exact ⟨rfl, rfl⟩
  | _ =>
    cases h'
    exact ⟨rfl, rfl⟩

theorem reports_check {head : Head n} {node : Node} (h : head.HasNode children [] node)
    (notImport : ∀ tree, head ≠ .useDeclaration tree)
    : p.Reports (head.HasNode children) (p.check node.kind node.subject node.location) := by
  unfold NodePattern.check
  split
  case isTrue accepted =>
    refine .singleton (j := []) fun route other => ⟨fun holds => h.unique notImport holds.1, ?_⟩
    rintro ⟨rfl, rfl⟩
    exact ⟨h, (NodePattern.accepts_iff _).mp accepted⟩
  case isFalse rejected =>
    refine .nil fun route other ⟨holds, accepted⟩ => rejected ?_
    obtain ⟨-, rfl⟩ := h.unique notImport holds
    exact (NodePattern.accepts_iff _).mpr accepted

theorem flatMap_check (leaves : List UseTree.Leaf)
    : (leaves.flatMap fun leaf => p.check .useLeaf leaf.text leaf.location)
        = (leaves.filter fun leaf => p.accepts .useLeaf leaf.text).map UseTree.Leaf.location := by
  induction leaves with
  | nil => rfl
  | cons leaf leaves ih =>
    rw [List.flatMap_cons, ih, List.filter_cons, NodePattern.check]
    split
    . rfl
    . rfl

theorem reports_imported (tree : UseTree)
    : p.Reports ((Head.useDeclaration tree).HasNode children)
        (tree.leaves.flatMap fun leaf => p.check .useLeaf leaf.text leaf.location) := by
  rw [flatMap_check]
  have selected := (tree.lists_leaves.filter fun leaf => p.accepts .useLeaf leaf.text).map
    UseTree.Leaf.location
  refine (selected.image fun leaf : UseTree.Leaf =>
    (⟨.useLeaf, leaf.text, leaf.location⟩ : Node)).congr ?_
  intro route node
  constructor
  . rintro ⟨h, accepted⟩
    cases h with
    | useLeaf h => exact ⟨_, ⟨h, (NodePattern.accepts_iff _).mpr accepted⟩, rfl⟩
  . rintro ⟨leaf, ⟨h, accepted⟩, rfl⟩
    exact ⟨.useLeaf h, (NodePattern.accepts_iff _).mp accepted⟩

theorem reports_callee (children : List (Tree n))
    : p.Reports (Head.call.HasNode children) (p.checkCallee children) := by
  unfold NodePattern.checkCallee
  split
  case h_1 segments below arguments =>
    cases segments with
    | nil =>
      refine .nil ?_
      rintro route node ⟨h, -⟩
      cases h with
      | call callee => cases callee
    | cons first names =>
      exact reports_check (.call rfl) nofun
  case h_2 noPath =>
    refine .nil ?_
    rintro route node ⟨h, -⟩
    cases h with
    | call callee => exact noPath _ _ _ callee

theorem reports_found (p : NodePattern) (children : List (Tree n)) (head : Head n)
    : p.Reports (head.HasNode children) (head.found p children) := by
  cases head with
  | function name => exact reports_check (.function name) nofun
  | struct name => exact reports_check (.struct name) nofun
  | enum name => exact reports_check (.enum name) nofun
  | trait name => exact reports_check (.trait name) nofun
  | methodCall method => exact reports_check (.methodCall method) nofun
  | unsafeBlock keyword => exact reports_check (.unsafeBlock keyword) nofun
  | macroCall path body =>
    cases path with
    | nil => exact .nil nofun
    | cons first names => exact reports_check (.macroCall first names body) nofun
  | call =>
    refine NodePattern.reports_wanted ?_ (reports_callee children)
    rintro route node ⟨-⟩
    rfl
  | useDeclaration tree =>
    refine NodePattern.reports_wanted ?_ (reports_imported tree)
    rintro route node ⟨-⟩
    rfl
  | path => exact .nil nofun
  | other => exact .nil nofun

def InArguments : {n : Nat} → Head n → Nat × Address → Node → Prop
  | _ + 1, .macroCall _ body, i, node =>
    ∃ arguments, body.arguments? = some arguments ∧ Among Tree.HasNode arguments i node
  | _, _, _, _ => False

end Head

namespace Tree

variable {p : NodePattern}

theorem hasNode_iff {n : Nat} {head : Head n} {children : List (Tree n)} {address : Address}
    {node : Node}
    : (Tree.node head children).HasNode address node
        ↔ (∃ route, address = .here route ∧ head.HasNode children route node)
          ∨ (∃ i, address = .child i.1 i.2 ∧ Among HasNode children i node)
          ∨ ∃ i, address = .argument i.1 i.2 ∧ head.InArguments i node := by
  constructor
  . intro h
    cases h with
    | here h => exact .inl ⟨_, rfl, h⟩
    | child found h => exact .inr (.inl ⟨(_, _), rfl, _, found, h⟩)
    | argument reads found h => exact .inr (.inr ⟨(_, _), rfl, _, reads, _, found, h⟩)
  . rintro (⟨route, rfl, h⟩ | ⟨i, rfl, t, found, h⟩ | ⟨i, rfl, h⟩)
    . exact .here h
    . exact .child found h
    . cases n with
      | zero => exact h.elim
      | succ n =>
        cases head with
        | macroCall path body =>
          obtain ⟨arguments, reads, t, found, h⟩ := h
          exact .argument reads found h
        | _ => exact h.elim

section Found

variable {n : Nat} {inBody : MacroBody n → List Location}

def SearchesBodies (p : NodePattern) (inBody : MacroBody n → List Location) : Prop :=
  ∀ path body, p.Reports (Head.macroCall path body).InArguments (inBody body)

theorem reports_inArguments (bodies : SearchesBodies p inBody) (head : Head n)
    : p.Reports head.InArguments
        (match head with
          | .macroCall _ body => inBody body
          | _ => []) := by
  split
  case h_1 path body => exact bodies path body
  case h_2 noMacro =>
    refine .nil fun i node ⟨h, _⟩ => ?_
    unfold Head.InArguments at h
    split at h
    . exact noMacro _ _ rfl
    . exact h

mutual

theorem reports_foundWith (bodies : SearchesBodies p inBody)
    : ∀ t : Tree n, p.Reports t.HasNode (t.foundWith p inBody)
  | .node head children => by
    have atHead := (head.reports_found p children).reindex Address.here (by simp)
    have inChildren := (reports_foundInListWith bodies children).reindex
      (fun i => Address.child i.1 i.2) (by simp [Prod.ext_iff])
    have inArguments := (reports_inArguments bodies head).reindex
      (fun i => Address.argument i.1 i.2) (by simp [Prod.ext_iff])
    refine ((atHead.append inChildren ?_).append inArguments ?_).congr ?_
    . rintro _ _ _ ⟨route, rfl, -⟩ ⟨i, same, -⟩
      cases same
    . rintro _ _ _ (⟨route, rfl, -⟩ | ⟨i, rfl, -⟩) ⟨j, same, -⟩
      . cases same
      . cases same
    . intro address node
      rw [hasNode_iff]
      simp only [among_and_iff]
      grind

theorem reports_foundInListWith (bodies : SearchesBodies p inBody)
    : ∀ ts : List (Tree n),
        ListsOnce (Among (fun t address node => t.HasNode address node ∧ p.Accepts node) ts)
          Node.location (foundInListWith p inBody ts)
  | [] => .among_nil
  | t :: ts => .among_cons (reports_foundWith bodies t) (reports_foundInListWith bodies ts)

end

end Found

theorem reports_found (p : NodePattern)
    : ∀ {n : Nat} (t : Tree n), p.Reports t.HasNode (t.found p)
  | 0, t => by
    refine reports_foundWith (fun path body => ?_) t
    -- no list of tokens has a size below zero
    exact absurd body.small (Nat.not_lt_zero _)
  | n + 1, t => by
    refine reports_foundWith (fun path body => ?_) t
    cases reads : body.arguments? with
    | none =>
      refine .nil ?_
      rintro i node ⟨⟨arguments, reads', -⟩, -⟩
      cases reads.symm.trans reads'
    | some arguments =>
      refine (ListsOnce.among_flatMap (reports_found p) arguments).congr fun i node => ?_
      rw [among_and_iff]
      simp [Head.InArguments, reads]

end Tree

end Syntax

namespace Location

theorem le_iff {l m : Location}
    : l.le m = true ↔ l.line < m.line ∨ l.line = m.line ∧ l.column ≤ m.column := by
  simp [le]

theorem le_trans (k l m : Location) (h : k.le l = true) (h' : l.le m = true)
    : k.le m = true := by
  rw [le_iff] at *
  omega

theorem le_total (l m : Location) : (l.le m || m.le l) = true := by
  rw [Bool.or_eq_true, le_iff, le_iff]
  omega

end Location

namespace ParsedFile

variable (pattern : NodePattern) (file : ParsedFile)

theorem lists_find
    : ListsOnce (fun address node => file.tree.tree.HasNode address node ∧ pattern.Accepts node)
        (fun node => ⟨file.path, node.location.line, node.location.column⟩) (file.find pattern) := by
  have found := Syntax.Tree.reports_found pattern file.tree.tree
  have sorted := found.perm (List.mergeSort_perm _ Location.le)
  exact sorted.map fun l => (⟨file.path, l.line, l.column⟩ : Position)

theorem pairwise_find
    : (file.find pattern).Pairwise fun first second =>
        first.line < second.line ∨ first.line = second.line ∧ first.column ≤ second.column := by
  rw [find, List.pairwise_map]
  refine (List.pairwise_mergeSort Location.le_trans Location.le_total _).imp ?_
  exact Location.le_iff.mp

end ParsedFile

/--
The search of a file reports each node that the pattern accepts once, in the order of the text, and
nothing else. A unit has the matches of its files in their order, each as a group of its own.
-/
theorem NodePattern.search_exact (pattern : NodePattern)
    : (∀ file : ParsedFile,
        ListsOnce (fun address node => file.tree.tree.HasNode address node ∧ pattern.Accepts node)
          (fun node => ⟨file.path, node.location.line, node.location.column⟩) (file.find pattern)
        ∧ (file.find pattern).Pairwise fun first second =>
          first.line < second.line ∨ first.line = second.line ∧ first.column ≤ second.column)
      ∧ ∀ unit : SourceUnit,
        SourceUnit.matcher unit pattern
          = .ok (unit.files.flatMap fun file =>
              (file.find pattern).map fun position => [position]) := by
  refine ⟨fun file => ⟨file.lists_find pattern, file.pairwise_find pattern⟩, fun unit => ?_⟩
  rw [SourceUnit.matcher, List.map_flatMap]

example : ((Syntax.Tree.ofSource "fn f() { m!(a, m!(g())); }").toOption.bind fun tree =>
    (NodePattern.parse "call(g)").toOption.map fun p => p.find tree) = some [⟨1, 19⟩] := by
  decide +kernel

end PatternLint
