import PatternLint.Config.Source
import PatternLint.Proofs.FileTree.Without

/-!
This module contains the law of the place that a configuration is read from: the first one among its
candidates at which there is a file, unless it is named. Files at other places are not read.
-/

namespace PatternLint

open FileTree

namespace ConfigSource

def candidates (root : Path) (userDirectory : Option Path) : List ConfigSource :=
  (projectNames.map fun name => .project (root.join ⟨name⟩))
    ++ (userDirectory.map fun p => .user (p.join ⟨userName⟩)).toList

def IsThere (tree : FileTree) (here : Path) (source : ConfigSource) : Prop :=
  ∃ p, source.path? = some p ∧ tree.isFile (here.join p) = true

/-- The source of a configuration: what is named, else the first candidate that is there, else nothing. -/
inductive IsFirst (tree : FileTree) (here root : Path) (named userDirectory : Option Path) :
    ConfigSource → Prop where
  | named {p : Path} (hnamed : named = some p) : IsFirst tree here root named userDirectory (.explicit p)
  | found {before after : List ConfigSource} {source : ConfigSource} (hnamed : named = none)
      (hcandidates : candidates root userDirectory = before ++ source :: after)
      (hthere : source.IsThere tree here) (hfirst : ∀ other ∈ before, ¬ other.IsThere tree here)
      : IsFirst tree here root named userDirectory source
  | nothing (hnamed : named = none)
      (hnone : ∀ other ∈ candidates root userDirectory, ¬ other.IsThere tree here)
      : IsFirst tree here root named userDirectory .builtIn

/--
What a source gives: the configuration that the text of its file stands for. If there is no file, then
nothing is configured.
-/
inductive Gives (tree : FileTree) (here : Path) : ConfigSource → Config → Prop where
  | text {source : ConfigSource} {p : Path} {text : String} {c : Config} (hpath : source.path? = some p)
      (hfile : tree.resolve true (here.join p) = .ok (.file text.toUTF8))
      (hconfig : Config.ofText text = .ok c) : Gives tree here source c
  | nothing : Gives tree here .builtIn .empty

variable {tree : FileTree} {here root : Path} {named userDirectory : Option Path} {source : ConfigSource}

def isThere (tree : FileTree) (here : Path) (source : ConfigSource) : Bool :=
  source.path?.any fun p => tree.isFile (here.join p)

theorem isThere_iff : source.isThere tree here = true ↔ source.IsThere tree here := by
  unfold isThere IsThere
  rw [Option.any_eq_true]

theorem find_none_eq
    : find tree here root none userDirectory
        =
      ((candidates root userDirectory).find? (isThere tree here)).getD .builtIn := by
  have hproject : isThere tree here ∘ (fun name : String => project (root.join ⟨name⟩))
      = (fun p => tree.isFile (here.join p)) ∘ fun name : String => root.join ⟨name⟩ := by
    rfl
  unfold find candidates
  dsimp only
  rw [List.find?_append, List.find?_map, List.find?_map, hproject]
  cases projectNames.find? ((fun p => tree.isFile (here.join p)) ∘ fun name : String => root.join ⟨name⟩) with
  | some name => rfl
  | none =>
    cases userDirectory with
    | none => rfl
    | some directory =>
      dsimp only [Option.map_some, Option.map_none, Option.none_or, Option.toList_some]
      rw [Option.filter_some, List.find?_singleton]
      unfold isThere path?
      dsimp only [Option.any_some]
      by_cases hfile : tree.isFile (here.join (directory.join ⟨userName⟩)) = true
      . rw [if_pos hfile, if_pos hfile]
        rfl
      . rw [if_neg hfile, if_neg hfile]
        rfl

theorem isFirst_iff_find_eq
    : source.IsFirst tree here root named userDirectory ↔ find tree here root named userDirectory = source := by
  cases named with
  | some p =>
    constructor
    . rintro (hnamed | hnamed | hnamed)
      . cases hnamed
        rfl
      . contradiction
      . contradiction
    . rintro rfl
      exact .named rfl
  | none =>
    rw [find_none_eq]
    constructor
    . intro h
      cases h with
      | named hnamed => contradiction
      | found _ hcandidates hthere hfirst =>
        rw [List.find?_eq_some_iff_append.2]
        . rfl
        . refine ⟨isThere_iff.2 hthere, _, _, hcandidates, ?_⟩
          intro other hother
          rw [Bool.not_eq_true', Bool.eq_false_iff, Ne, isThere_iff]
          exact hfirst other hother
      | nothing _ hnone =>
        rw [List.find?_eq_none.2]
        . rfl
        . intro other hother
          rw [isThere_iff]
          exact hnone other hother
    . cases hfind : (candidates root userDirectory).find? (isThere tree here) with
      | none =>
        rintro rfl
        refine .nothing rfl ?_
        intro other hother
        rw [← isThere_iff]
        exact List.find?_eq_none.1 hfind other hother
      | some first =>
        rintro rfl
        obtain ⟨hthere, before, after, hcandidates, hfirst⟩ := List.find?_eq_some_iff_append.1 hfind
        refine .found rfl hcandidates (isThere_iff.1 hthere) ?_
        intro other hother
        rw [← isThere_iff]
        simpa using hfirst other hother

/-! ### Reading a configuration -/

theorem gives_iff {c : Config} : source.Gives tree here c ↔ source.load tree here = .ok c := by
  unfold load
  constructor
  . rintro (⟨hpath, hfile, hconfig⟩ | _)
    . rw [hpath]
      dsimp only
      rw [readText_eq_ok_iff.2 hfile]
      exact hconfig
    . rfl
  . intro hload
    cases hpath : source.path? with
    | none =>
      rw [hpath] at hload
      cases hload
      cases source with
      | builtIn => exact .nothing
      | explicit p => contradiction
      | project p => contradiction
      | user p => contradiction
    | some p =>
      rw [hpath] at hload
      dsimp only at hload
      cases htext : tree.readText (here.join p) with
      | error e =>
        rw [htext] at hload
        contradiction
      | ok text =>
        rw [htext] at hload
        exact .text hpath (readText_eq_ok_iff.1 htext) hload

variable {gone : List RawText → Bool} {t t' : FileTree}

def Spares (gone : List RawText → Bool) (tree : FileTree) (here : Path) (source : ConfigSource) : Prop :=
  ∀ p, source.path? = some p → FileTree.Spares gone tree (here.join p)

theorem find_eq_of_sameShape (h : SameShape t t')
    : find t' here root named userDirectory = find t here root named userDirectory := by
  unfold find
  simp only [(h.standsAlike _).isFile_eq]

theorem load_eq_of_sameShape (h : SameBut gone t t') (hshape : SameShape t t')
    (hspares : source.Spares gone t here) : source.load t' here = source.load t here := by
  unfold load
  cases hpath : source.path? with
  | none => rfl
  | some p =>
    dsimp only
    rw [h.readText_eq hshape (hspares p hpath)]

theorem load_eq_ok (h : SameBut gone t t') (hspares : source.Spares gone t here) {c : Config}
    (hload : source.load t here = .ok c) : source.load t' here = .ok c := by
  unfold load at hload ⊢
  cases hpath : source.path? with
  | none =>
    rw [hpath] at hload
    exact hload
  | some p =>
    rw [hpath] at hload
    dsimp only at hload ⊢
    cases htext : t.readText (here.join p) with
    | error e =>
      rw [htext] at hload
      contradiction
    | ok text =>
      rw [htext] at hload
      rw [h.readText_eq_ok (hspares p hpath) htext]
      exact hload

end ConfigSource

end PatternLint
