import PatternLint.Proofs.FileTree.Without
import PatternLint.Proofs.Schedule.Plan
import PatternLint.Proofs.Source.Loadable

/-!
This module contains the law of files that are no sources: whether they are there, and what is in them, has
no influence on what is loaded from a project and on what is scheduled for it.
-/

namespace PatternLint

open Text FileTree

/-- None of the places `gone` has the name of a source. -/
def SparesSources (gone : List RawText → Bool) : Prop :=
  ∀ (names : List RawText) (name : String), gone (names ++ [.ofString name]) = true →
    Path.extensionOfName? name ≠ some sourceExtension

theorem SparesSources.goneFrom {gone : List RawText → Bool} (h : SparesSources gone) (names : List RawText)
    : SparesSources (goneFrom gone names) := by
  intro more name hgone
  unfold FileTree.goneFrom at hgone
  rw [← List.append_assoc] at hgone
  exact h _ name hgone

theorem sparesSources_of_name {before : List RawText} {name : String}
    (h : Path.extensionOfName? name ≠ some sourceExtension)
    : SparesSources (· == before ++ [.ofString name]) := by
  intro names other hgone
  obtain ⟨_, hname⟩ := List.append_singleton_inj.1 (beq_iff_eq.1 hgone)
  rw [RawText.ofString_inj.1 hname]
  exact h

theorem SparesSources.isSourcePath_join {gone : List RawText → Bool} (h : SparesSources gone)
    (directory : Path) {name : RawText} (hname : Path.IsName name) (hgone : gone [name] = true)
    : isSourcePath (directory.join ⟨name⟩) = false := by
  rw [Bool.eq_false_iff, ne_eq, isSourcePath_iff]
  rintro ⟨text, htext, hextension, _⟩
  rw [Path.fileName?_eq_some (Path.components_join hname)] at htext
  cases htext
  exact h [] text hgone hextension

/-! ### The two walks -/

section Walk

variable {P : Type} {ignored : PathSet} {gone : List RawText → Bool}

theorem isLeftOut_without (path : Path) (name : RawText) (t : FileTree)
    : isLeftOut ignored path name (t.without gone) = isLeftOut ignored path name t := by
  cases t <;> rfl

theorem sourcesAt_without {t : FileTree} (hproper : t.IsProper) (hspares : SparesSources gone) (path : Path)
    : sourcesAt ignored path (t.without gone) = sourcesAt ignored path t := by
  induction t using FileTree.induction generalizing gone path with
  | file content => rfl
  | link target => rfl
  | directory entries ih =>
    rw [without, sourcesAt, sourcesAt]
    have hentries := hproper.2
    clear hproper
    induction entries with
    | nil => rfl
    | cons entry entries ih' =>
      obtain ⟨name, t⟩ := entry
      obtain ⟨hname, ht, hrest⟩ := hentries
      obtain ⟨hfirst, hothers⟩ := List.forall_mem_cons.1 ih
      rw [withoutIn, sourcesIn, ← ih' hothers hrest]
      split
      . next hgone =>
        -- a file that is gone is no source
        rw [Bool.and_eq_true] at hgone
        cases t with
        | link target => cases hgone.1
        | directory entries => cases hgone.1
        | file content =>
          rw [sourcesAt, hspares.isSourcePath_join path hname hgone.2]
          simp
      . rw [sourcesIn, isLeftOut_without, hfirst ht (hspares.goneFrom [name])]

theorem sourcesIn_withoutIn {entries : List (RawText × FileTree)} (directory : Path)
    (hproper : (FileTree.directory entries).IsProper) (hspares : SparesSources gone)
    : sourcesIn ignored directory (withoutIn gone entries) = sourcesIn ignored directory entries := by
  have h : sourcesAt ignored directory ((FileTree.directory entries).without gone)
      = sourcesAt ignored directory (.directory entries) := sourcesAt_without hproper hspares directory
  rwa [without, sourcesAt, sourcesAt] at h

theorem admits_eq_false (policy : Policy P) {path : Path} (h : isSourcePath path = false)
    : policy.admits isSourcePath ⟨path, false⟩ = false := by
  unfold Policy.admits
  simp [h]

theorem ofEntries_cons_of_nil {policy : Policy P} {entry : ListedEntry} {entries : List ListedEntry}
    (h : Plan.ofEntry policy isSourcePath entry = .ok [])
    : Plan.ofEntries policy isSourcePath (entry :: entries) = Plan.ofEntries policy isSourcePath entries := by
  rw [Plan.ofEntries, h]
  cases Plan.ofEntries policy isSourcePath entries <;> rfl

theorem plan_withoutIn (policy : Policy P) (directory : Path) {entries : List (RawText × FileTree)}
    (hproper : AreProper entries) (hspares : SparesSources gone)
    (hbelow : ∀ entry ∈ entries, ∀ path,
      Plan.ofEntry policy isSourcePath (.ofTree path (entry.2.without (goneFrom gone [entry.1])))
        = Plan.ofEntry policy isSourcePath (.ofTree path entry.2))
    : Plan.ofEntries policy isSourcePath (Listing.ofEntries directory (withoutIn gone entries))
          = Plan.ofEntries policy isSourcePath (Listing.ofEntries directory entries)
        ∧ Plan.plainFiles policy isSourcePath (Listing.ofEntries directory (withoutIn gone entries))
          = Plan.plainFiles policy isSourcePath (Listing.ofEntries directory entries) := by
  induction entries with
  | nil => exact ⟨rfl, rfl⟩
  | cons entry entries ih =>
    obtain ⟨name, t⟩ := entry
    obtain ⟨hname, ht, hrest⟩ := hproper
    obtain ⟨hfirst, hothers⟩ := List.forall_mem_cons.1 hbelow
    obtain ⟨hentries, hplain⟩ := ih hrest hothers
    rw [withoutIn, Listing.ofEntries, Schedule.plainFiles_cons]
    split
    . next hgone =>
      rw [Bool.and_eq_true] at hgone
      cases t with
      | link target => cases hgone.1
      | directory entries => cases hgone.1
      | file content =>
        have hsource := hspares.isSourcePath_join directory hname hgone.2
        have hadmits := admits_eq_false policy hsource
        rw [hentries, hplain, ListedEntry.ofTree, ofEntries_cons_of_nil]
        . refine ⟨rfl, ?_⟩
          simp [Plan.plainFiles, hadmits]
        . rw [Plan.ofEntry, hadmits]
          rfl
    . rw [Listing.ofEntries, Schedule.plainFiles_cons, Plan.ofEntries, Plan.ofEntries, hfirst, hentries, hplain]
      refine ⟨rfl, ?_⟩
      cases t <;> rfl

theorem planOfEntry_without {policy : Policy P} {t : FileTree} (hproper : t.IsProper)
    (hspares : SparesSources gone) (path : Path)
    : Plan.ofEntry policy isSourcePath (.ofTree path (t.without gone))
        = Plan.ofEntry policy isSourcePath (.ofTree path t) := by
  induction t using FileTree.induction generalizing gone path with
  | file content => rfl
  | link target => rfl
  | directory entries ih =>
    have hbelow (entry : RawText × FileTree) (hentry : entry ∈ entries) :=
      ih entry hentry (areProper_iff.1 hproper.2 _ hentry).2 (hspares.goneFrom [entry.1])
    obtain ⟨hentries, hplain⟩ := plan_withoutIn policy path hproper.2 hspares hbelow
    rw [without, ListedEntry.ofTree, ListedEntry.ofTree, Plan.ofEntry, Plan.ofEntry, Plan.ofListing,
      Plan.ofListing, hentries, hplain]

theorem planOfListing_withoutIn {policy : Policy P} {entries : List (RawText × FileTree)} {directory : Path}
    (hproper : (FileTree.directory entries).IsProper) (hspares : SparesSources gone)
    : Plan.ofListing policy isSourcePath directory (.entries (Listing.ofEntries directory (withoutIn gone entries)))
        = Plan.ofListing policy isSourcePath directory (.entries (Listing.ofEntries directory entries)) := by
  obtain ⟨hentries, hplain⟩ := plan_withoutIn policy directory hproper.2 hspares
    fun entry hentry path =>
      planOfEntry_without (areProper_iff.1 hproper.2 _ hentry).2 (hspares.goneFrom [entry.1]) path
  rw [Plan.ofListing, Plan.ofListing, hentries, hplain]

end Walk

/-! ### The root -/

theorem Path.getLast?_components {p : Path} {before : List (List UInt8)} {last : List UInt8}
    {component : Path.Component} (hsplit : splitAt Path.slash p.text.toList = before ++ [last])
    (hlast : Path.componentOfPart? last = some component) : p.components.getLast? = some component := by
  rw [Path.components_eq, hsplit]
  cases before with
  | nil =>
    have hpieces : Path.splitPieces ([] ++ [last]) = (.nothing, [last]) := by
      unfold Path.splitPieces
      split
      . next h => simp at h
      . next h =>
        cases h
        cases hlast
      . rfl
    rw [hpieces]
    simp [Path.componentsOfParts, Path.Anchor.components, hlast]
  | cons piece before =>
    rw [Path.componentsOfParts_snoc (by simp), hlast]
    simp

theorem FileTree.head?_of_file {t : FileTree} {p : Path} {result : List RawText} {content : ByteArray}
    {name : RawText} (hfollows : t.Follows false maxLinks [] (splitAt Path.slash p.text.toList) result)
    (hfound : t.descend result.reverse = some (.file content)) (hname : p.fileName? = some name)
    : ∃ here, result = name :: here := by
  obtain ⟨before, last, hsplit⟩ :=
    (List.eq_nil_or_concat (splitAt Path.slash p.text.toList)).resolve_left (splitAt_ne_nil _ _)
  rw [List.concat_eq_append] at hsplit
  have hcomponent {component : Path.Component} (h : Path.componentOfPart? last = some component)
      : component = .normal name := by
    unfold Path.fileName? at hname
    rw [Path.getLast?_components hsplit h] at hname
    cases component with
    | normal other =>
      cases hname
      rfl
    | _ => contradiction
  rw [hsplit] at hfollows
  obtain ⟨middle, left, _, hend⟩ := hfollows.split (by simp)
  cases hend with
  | stay hdirectory _ _ hrest =>
    cases hrest
    rw [hdirectory] at hfound
    cases hfound
  | leave _ hparent => cases hcomponent hparent
  | enter _ hpart _ _ _ hrest =>
    cases hrest
    cases hcomponent hpart
    exact ⟨_, rfl⟩
  | last _ hpart =>
    cases hcomponent hpart
    exact ⟨_, rfl⟩
  | jump _ _ _ _ hgo => exact absurd rfl hgo

namespace FileTree.SameBut

variable {gone : List RawText → Bool} {t t' : FileTree} {p : Path}

theorem resolve_source {content : ByteArray} (h : SameBut gone t t') (hspares : SparesSources gone)
    (hsource : isSourcePath p = true) (hfound : t.resolve false p = .ok (.file content))
    : t'.resolve false p = .ok (.file content) := by
  obtain ⟨hzero, hempty, result, hfollows, hdescend⟩ := resolve_eq_ok_iff.1 hfound
  obtain ⟨name, hname, hextension, _⟩ := isSourcePath_iff.1 hsource
  have hkept : gone result.reverse = false := by
    obtain ⟨here, rfl⟩ := head?_of_file hfollows hdescend hname
    rw [List.reverse_cons, Bool.eq_false_iff]
    intro hgone
    exact hspares _ _ hgone hextension
  have hfollows' := hfollows.of_sameBut h (by simp [hkept])
  exact resolve_eq_ok_iff.2 ⟨hzero, hempty, result, hfollows', h.descend_file hdescend hkept⟩

end FileTree.SameBut

inductive WalkStart.Alike (gone : List RawText → Bool) (root : Path) : WalkStart → WalkStart → Prop where
  | directory {names : List RawText} {entries entries' : List (RawText × FileTree)}
      (heq : withoutIn (goneFrom gone names) entries' = withoutIn (goneFrom gone names) entries)
      : Alike gone root (.directory entries) (.directory entries')
  | file {content content' : ByteArray} (heq : isSourcePath root = true → content' = content)
      : Alike gone root (.file content) (.file content')
  | linkedFile : Alike gone root .linkedFile .linkedFile

theorem WalkStart.find_alike {gone : List RawText → Bool} {t t' : FileTree} {root : Path}
    (h : SameBut gone t t') (hspares : SparesSources gone)
    (hroot : ∀ followLast, (t'.resolve followLast root).map outline = (t.resolve followLast root).map outline)
    : (∃ e, WalkStart.find t root = .error e ∧ WalkStart.find t' root = .error e)
        ∨ ∃ start start', WalkStart.find t root = .ok start ∧ WalkStart.find t' root = .ok start'
          ∧ WalkStart.Alike gone root start start' := by
  unfold WalkStart.find
  have houtline := hroot false
  cases hfound : t.resolve false root with
  | error e =>
    rw [hfound] at houtline
    rw [map_eq_error_iff.1 houtline]
    exact .inl ⟨e, rfl, rfl⟩
  | ok found =>
    cases found with
    | directory entries =>
      obtain ⟨_, entries', hfound', heq⟩ := h.resolve_directory hfound
      rw [hfound']
      exact .inr ⟨_, _, rfl, rfl, .directory heq⟩
    | file content =>
      rw [hfound] at houtline
      obtain ⟨found', hfound', houtline⟩ := map_eq_ok_iff.1 houtline
      rw [hfound']
      cases found' with
      | directory entries => cases houtline
      | link target => cases houtline
      | file content' =>
        refine .inr ⟨_, _, rfl, rfl, .file ?_⟩
        intro hsource
        have := (h.resolve_source hspares hsource hfound).symm.trans hfound'
        cases this
        rfl
    | link target =>
      rw [h.resolve_link hfound]
      dsimp only [bind, Except.bind]
      have houtline := hroot true
      cases hlinked : t.resolve true root with
      | error e =>
        rw [hlinked] at houtline
        rw [map_eq_error_iff.1 houtline]
        exact .inl ⟨e, rfl, rfl⟩
      | ok linked =>
        cases linked with
        | directory entries =>
          obtain ⟨_, entries', hlinked', heq⟩ := h.resolve_directory hlinked
          rw [hlinked']
          exact .inr ⟨_, _, rfl, rfl, .directory heq⟩
        | link target =>
          rw [h.resolve_link hlinked]
          exact .inr ⟨_, _, rfl, rfl, .linkedFile⟩
        | file content =>
          rw [hlinked] at houtline
          obtain ⟨linked', hlinked', houtline⟩ := map_eq_ok_iff.1 houtline
          rw [hlinked']
          cases linked' with
          | directory entries => cases houtline
          | link target => cases houtline
          | file content' => exact .inr ⟨_, _, rfl, rfl, .linkedFile⟩

/-! ### Loading and scheduling -/

section Project

variable {P : Type} {gone : List RawText → Bool} {t t' : FileTree} {root : Path} {ignored : PathSet}

theorem sourcesFrom_eq_of_sameBut (h : SameBut gone t t') (hspares : SparesSources gone)
    (hroot : ∀ followLast, (t'.resolve followLast root).map outline = (t.resolve followLast root).map outline)
    : sourcesFrom t' root ignored = sourcesFrom t root ignored := by
  unfold sourcesFrom
  rcases WalkStart.find_alike h hspares hroot with ⟨e, hstart, hstart'⟩ | ⟨_, _, hstart, hstart', halike⟩
  . rw [hstart, hstart']
  . rw [hstart, hstart']
    cases halike with
    | directory heq =>
      dsimp only
      rw [← sourcesIn_withoutIn root (WalkStart.isProper_find h.proper' hstart') (hspares.goneFrom _), heq,
        sourcesIn_withoutIn root (WalkStart.isProper_find h.proper hstart) (hspares.goneFrom _)]
    | file heq =>
      dsimp only
      rw [sourcesAt, sourcesAt]
      split
      . next hsource => rw [heq hsource]
      . rfl
    | linkedFile => rfl

theorem planOfPath_eq_of_sameBut (policy : Policy P) (h : SameBut gone t t') (hspares : SparesSources gone)
    (hroot : ∀ followLast, (t'.resolve followLast root).map outline = (t.resolve followLast root).map outline)
    : Plan.ofListing policy isSourcePath root (Listing.ofPath t' root)
        = Plan.ofListing policy isSourcePath root (Listing.ofPath t root) := by
  unfold Listing.ofPath
  rcases WalkStart.find_alike h hspares hroot with ⟨e, hstart, hstart'⟩ | ⟨_, _, hstart, hstart', halike⟩
  . rw [hstart, hstart']
  . rw [hstart, hstart']
    cases halike with
    | directory heq =>
      dsimp only
      rw [← planOfListing_withoutIn (WalkStart.isProper_find h.proper' hstart') (hspares.goneFrom _), heq,
        planOfListing_withoutIn (WalkStart.isProper_find h.proper hstart) (hspares.goneFrom _)]
    | file heq => rfl
    | linkedFile => rfl

theorem Sources.load_eq_of_sameBut (h : SameBut gone t t') (hspares : SparesSources gone)
    (hroot : ∀ followLast, (t'.resolve followLast root).map outline = (t.resolve followLast root).map outline)
    : load t' root ignored = load t root ignored := by
  unfold load
  rw [sourcesFrom_eq_of_sameBut h hspares hroot]

theorem Schedule.ofProject_eq_of_sameBut {policy : Policy P} (sources : Sources) (h : SameBut gone t t')
    (hspares : SparesSources gone)
    (hroot : ∀ followLast, (t'.resolve followLast policy.root).map outline
      = (t.resolve followLast policy.root).map outline)
    : ofProject policy (sources.provider t') = ofProject policy (sources.provider t) := by
  rw [ofProject_eq_plan, ofProject_eq_plan]
  unfold Plan.ofProject Sources.provider
  dsimp only
  rw [planOfPath_eq_of_sameBut policy h hspares hroot]
  rfl

end Project

end PatternLint
