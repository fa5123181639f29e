import PatternLint.Proofs.Path
import PatternLint.Proofs.Text.Raw
import PatternLint.Source.Name
import PatternLint.Source.Provider

/-!
This module contains the laws of the names that decide what is checked. The walk that loads sources
goes by the names that are shown, and the one that schedules checks by the names that are texts. They
differ on hidden names that are no texts, and on no others.
-/

namespace PatternLint

namespace RawText

def IsHidden (name : RawText) : Prop :=
  name.toList.head? = some Path.dot

def IsHiddenText (name : RawText) : Prop :=
  name.IsHidden ∧ name.IsText

/-- A name that starts with a dot and is no text. -/
def IsHalfHidden (name : RawText) : Prop :=
  name.IsHidden ∧ ¬ name.IsText

instance (name : RawText) : Decidable name.IsHidden :=
  inferInstanceAs (Decidable (_ = _))

instance (name : RawText) : Decidable name.IsHiddenText :=
  inferInstanceAs (Decidable (_ ∧ _))

instance (name : RawText) : Decidable name.IsHalfHidden :=
  inferInstanceAs (Decidable (_ ∧ _))

theorem isHidden_iff {name : RawText} : name.IsHidden ↔ name.IsHiddenText ∨ name.IsHalfHidden := by
  unfold IsHiddenText IsHalfHidden
  rw [← and_or_left, and_iff_left (Classical.em _)]

end RawText

namespace Path

def Component.IsHalfHidden : Component → Prop
  | normal name => name.IsHalfHidden
  | _ => False

instance (component : Component) : Decidable component.IsHalfHidden :=
  match component with
  | .normal name => inferInstanceAs (Decidable name.IsHalfHidden)
  | .root | .current | .parent => isFalse id

/-- A path leads from a directory by way of a name that is half hidden. -/
def IsBuriedBelow (p directory : Path) : Prop :=
  ∃ component ∈ p.components.drop directory.components.length, component.IsHalfHidden

instance (p directory : Path) : Decidable (p.IsBuriedBelow directory) :=
  inferInstanceAs (Decidable (∃ component ∈ p.components.drop _, component.IsHalfHidden))

theorem not_isBuriedBelow_self (p : Path) : ¬ p.IsBuriedBelow p := by
  rintro ⟨component, hcomponent, _⟩
  simp at hcomponent

theorem isBuriedBelow_congr {p q directory : Path} (h : p.components = q.components)
    : p.IsBuriedBelow directory ↔ q.IsBuriedBelow directory := by
  unfold IsBuriedBelow
  rw [h]

theorem isBuriedBelow_iff {p child directory : Path} {name : RawText} {others : List Component}
    (hchild : child.components = directory.components ++ [.normal name])
    (hp : p.components = child.components ++ others)
    : p.IsBuriedBelow directory ↔ name.IsHalfHidden ∨ p.IsBuriedBelow child := by
  unfold IsBuriedBelow
  rw [hp, List.drop_left, hchild, List.append_assoc, List.drop_left, List.singleton_append]
  simp only [List.mem_cons, or_and_right, exists_or, exists_eq_left]
  rfl

end Path

theorem isHiddenName_iff {text : String} : isHiddenName text = true ↔ RawText.IsHidden text := by
  unfold isHiddenName RawText.IsHidden
  rw [decide_eq_true_iff]
  exact (Text.head?_bytes (by decide) (by decide) text).symm

theorem isHiddenName_shown_iff {name : RawText} : isHiddenName name.shown = true ↔ name.IsHidden := by
  unfold isHiddenName
  rw [decide_eq_true_iff]
  exact RawText.head?_shown (by decide) (by decide) name

theorem isHiddenName_text_iff {name : RawText}
    : isHiddenName (name.text?.getD "") = true ↔ name.IsHiddenText := by
  unfold RawText.IsHiddenText
  rw [← RawText.text?_isSome_iff]
  cases htext : name.text? with
  | none => simp [isHiddenName]
  | some text =>
    rw [RawText.text?_eq_some_iff.1 htext, Option.getD_some, isHiddenName_iff]
    simp

theorem shown_eq_vendorName_iff {name : RawText} : name.shown = vendorName ↔ name = vendorName := by
  constructor
  . intro h
    exact RawText.eq_of_shown h (by decide)
  . rintro rfl
    exact RawText.shown_ofString _

theorem text_eq_vendorName_iff {name : RawText}
    : name.text?.getD "" = vendorName ↔ name = vendorName := by
  cases htext : name.text? with
  | none =>
    constructor
    . intro h
      contradiction
    . rintro rfl
      rw [RawText.text?_ofString] at htext
      contradiction
  | some text =>
    have hname := RawText.text?_eq_some_iff.1 htext
    constructor
    . rintro rfl
      exact hname
    . intro hvendor
      rw [hvendor, RawText.text?_ofString] at htext
      exact (Option.some.inj htext).symm

theorem DirEntry.name_eq {path directory : Path} {name : RawText} (isDirectory : Bool)
    (h : path.components = directory.components ++ [.normal name])
    : DirEntry.name ⟨path, isDirectory⟩ = name.text?.getD "" := by
  unfold DirEntry.name
  rw [Path.fileName?_eq_some h]
  rfl

end PatternLint
