import Mathlib.Algebra.BigOperators.Group.Multiset.Basic
import PatternLint.Proofs.Config.Decode

/-!
This module contains the law of the scalars in a configuration: those of the document are all in it but for
the items that an array has beyond the fields of a checker or an override.
-/

namespace PatternLint

open Toml (Value Scalar)

def textScalars (texts : List String) : Multiset Scalar :=
  ↑(texts.map Scalar.text)

def CheckerEntry.scalars (c : CheckerEntry) : Multiset Scalar :=
  textScalars [c.name, c.pattern, c.message]

def Selection.scalars (s : Selection) : Multiset Scalar :=
  textScalars (s.enabled.getD []) + textScalars (s.disabled.getD [])

def OverrideEntry.scalars (e : OverrideEntry) : Multiset Scalar :=
  textScalars e.package.toList + textScalars e.file.toList + e.selection.scalars

def Config.scalars (c : Config) : Multiset Scalar :=
  ↑(c.choke.toList.map fun n : Nat => Scalar.integer n) + (c.checkers.map CheckerEntry.scalars).sum
    + c.selection.scalars + textScalars c.ignored + (c.overrides.map OverrideEntry.scalars).sum

def surplusOfRecord (fields : List String) : Value → Multiset Scalar
  | .array items => ((items.drop fields.length).map Value.scalars).sum
  | _ => 0

def surplusOfRecords (fields : List String) : Value → Multiset Scalar
  | .array items => (items.map (surplusOfRecord fields)).sum
  | _ => 0

def surplusOfEntry : String × Value → Multiset Scalar
  | ("checkers", v) => surplusOfRecords CheckerDraft.fields v
  | ("override", v) => surplusOfRecords OverrideEntry.fields v
  | _ => 0

def surplus (entries : Multiset (String × Value)) : Multiset Scalar :=
  (entries.map surplusOfEntry).sum

def scalarsOf (entries : Multiset (String × Value)) : Multiset Scalar :=
  (entries.map fun entry => entry.2.scalars).sum

section ScalarsOf

@[simp]
theorem scalarsOf_add (entries others : Multiset (String × Value))
    : scalarsOf (entries + others) = scalarsOf entries + scalarsOf others := by
  unfold scalarsOf
  rw [Multiset.map_add, Multiset.sum_add]

@[simp]
theorem surplus_add (entries others : Multiset (String × Value))
    : surplus (entries + others) = surplus entries + surplus others := by
  unfold surplus
  rw [Multiset.map_add, Multiset.sum_add]

theorem scalars_table (entries : List (String × Value))
    : (Value.table entries).scalars = scalarsOf entries := by
  unfold scalarsOf
  rw [Value.scalars_table, Multiset.map_coe, Multiset.sum_coe]

theorem scalars_textsValue (texts : List String) : (textsValue texts).scalars = textScalars texts := by
  unfold textsValue
  rw [Value.scalars_array]
  induction texts with
  | nil => rfl
  | cons s texts ih =>
    rw [List.map_cons, List.map_cons, List.sum_cons, ih]
    rfl

@[simp]
theorem scalarsOf_singleton (entry : String × Value) : scalarsOf {entry} = entry.2.scalars := by
  simp [scalarsOf]

@[simp]
theorem surplus_singleton (entry : String × Value) : surplus {entry} = surplusOfEntry entry := by
  simp [surplus]

theorem scalarsOf_text (name : String) (field : Option String)
    : scalarsOf (entryOf name .text field) = textScalars field.toList := by
  cases field with
  | none => rfl
  | some s =>
    rw [entryOf_some, scalarsOf_singleton]
    rfl

theorem scalarsOf_texts (name : String) (field : Option (List String))
    : scalarsOf (entryOf name textsValue field) = textScalars (field.getD []) := by
  cases field with
  | none => rfl
  | some texts => rw [entryOf_some, scalarsOf_singleton, scalars_textsValue, Option.getD_some]

end ScalarsOf

theorem CheckerEntry.scalarsOf_entries (c : CheckerEntry) : scalarsOf c.entries = c.scalars := by
  unfold entries CheckerDraft.entries
  rw [scalarsOf_add, scalarsOf_add, scalarsOf_text, scalarsOf_text, scalarsOf_text]
  rfl

theorem Selection.scalarsOf_entries (s : Selection) : scalarsOf s.entries = s.scalars := by
  unfold entries scalars
  rw [scalarsOf_add, scalarsOf_texts, scalarsOf_texts]

theorem OverrideEntry.scalarsOf_entries (e : OverrideEntry) : scalarsOf e.entries = e.scalars := by
  unfold entries scalars
  rw [scalarsOf_add, scalarsOf_add, scalarsOf_text, scalarsOf_text, Selection.scalarsOf_entries]

theorem sum_zip_add_sum_drop (fields : List String) (items : List Value)
    : ((fields.zip items).map fun entry => entry.2.scalars).sum
          + ((items.drop fields.length).map Value.scalars).sum
        =
      (items.map Value.scalars).sum := by
  induction fields generalizing items with
  | nil => simp
  | cons field fields ih =>
    cases items with
    | nil => simp
    | cons item items =>
      rw [List.zip_cons_cons, List.map_cons, List.sum_cons, List.length_cons, List.drop_succ_cons, add_assoc, ih,
        List.map_cons, List.sum_cons]

theorem scalars_eq_of_recordEntries? {fields : List String} {v : Value} {entries : List (String × Value)}
    (h : recordEntries? fields v = some entries) : v.scalars = scalarsOf entries + surplusOfRecord fields v := by
  unfold recordEntries? at h
  split at h
  . cases h
    rw [scalars_table]
    exact (add_zero _).symm
  . cases h
    rw [surplusOfRecord, Value.scalars_array, ← sum_zip_add_sum_drop fields]
    rfl
  . contradiction

theorem CheckerEntry.IsWrittenAs.scalars_eq {c : CheckerEntry} {v : Value} (h : c.IsWrittenAs v)
    : v.scalars = c.scalars + surplusOfRecord CheckerDraft.fields v := by
  obtain ⟨entries, hentries, hc⟩ := h
  rw [scalars_eq_of_recordEntries? hentries, ← hc, CheckerEntry.scalarsOf_entries]

theorem OverrideEntry.IsWrittenAs.scalars_eq {e : OverrideEntry} {v : Value} (h : e.IsWrittenAs v)
    : v.scalars = e.scalars + surplusOfRecord OverrideEntry.fields v := by
  obtain ⟨entries, hentries, he⟩ := h
  rw [scalars_eq_of_recordEntries? hentries, ← he, OverrideEntry.scalarsOf_entries]

theorem sum_scalars_eq {α : Type} {fields : List String} {scalars : α → Multiset Scalar}
    {IsWrittenAs : α → Value → Prop} {as : List α} {items : List Value} (h : List.Forall₂ IsWrittenAs as items)
    (hscalars : ∀ {a v}, IsWrittenAs a v → v.scalars = scalars a + surplusOfRecord fields v)
    : (Value.array items).scalars = (as.map scalars).sum + surplusOfRecords fields (.array items) := by
  rw [Value.scalars_array, surplusOfRecords]
  induction h with
  | nil => rfl
  | cons hitem _ ih =>
    rw [List.map_cons, List.sum_cons, List.map_cons, List.sum_cons, List.map_cons, List.sum_cons, ih, hscalars hitem]
    ac_rfl

theorem surplus_entryOf {α : Type} {name : String} (hname : ∀ v, surplusOfEntry (name, v) = 0) (written : α → Value)
    (field : Option α) : surplus (entryOf name written field) = 0 := by
  cases field with
  | none => rfl
  | some a => rw [entryOf_some, surplus_singleton, hname]

theorem scalarsOf_records {α : Type} {name : String} {fields : List String} {scalars : α → Multiset Scalar}
    {IsWrittenAs : α → Value → Prop} {as : List α} {items : Option (List Value)}
    (hname : ∀ v, surplusOfEntry (name, v) = surplusOfRecords fields v)
    (h : List.Forall₂ IsWrittenAs as (items.getD []))
    (hscalars : ∀ {a v}, IsWrittenAs a v → v.scalars = scalars a + surplusOfRecord fields v)
    : scalarsOf (entryOf name .array items) = (as.map scalars).sum + surplus (entryOf name .array items) := by
  cases items with
  | none =>
    cases h
    rfl
  | some items =>
    rw [entryOf_some, scalarsOf_singleton, surplus_singleton, hname]
    exact sum_scalars_eq h hscalars

theorem Config.scalarsOf_entries {c : Config} {l : Layout} (h : l.Holds c)
    : scalarsOf (c.entries l) = c.scalars + surplus (c.entries l) := by
  have hchoke : scalarsOf (entryOf "choke" (fun n : Nat => .integer n) c.choke)
      = ↑(c.choke.toList.map fun n : Nat => Scalar.integer n) := by
    cases c.choke with
    | none => rfl
    | some n =>
      rw [entryOf_some, scalarsOf_singleton]
      rfl
  have hnoChoke : surplus (entryOf "choke" (fun n : Nat => .integer n) c.choke) = 0 :=
    surplus_entryOf (fun _ => rfl) _ _
  have hnoSelection : surplus c.selection.entries = 0 := by
    unfold Selection.entries
    rw [surplus_add, surplus_entryOf (fun _ => rfl), surplus_entryOf (fun _ => rfl), add_zero]
  have hnoIgnored : surplus (entryOf "ignored" textsValue l.ignored) = 0 :=
    surplus_entryOf (fun _ => rfl) _ _
  have hcheckers : scalarsOf (entryOf "checkers" .array l.checkers)
      = (c.checkers.map CheckerEntry.scalars).sum + surplus (entryOf "checkers" .array l.checkers) :=
    scalarsOf_records (fun _ => rfl) h.checkers CheckerEntry.IsWrittenAs.scalars_eq
  have hoverrides : scalarsOf (entryOf "override" .array l.overrides)
      = (c.overrides.map OverrideEntry.scalars).sum + surplus (entryOf "override" .array l.overrides) :=
    scalarsOf_records (fun _ => rfl) h.overrides OverrideEntry.IsWrittenAs.scalars_eq
  unfold Config.entries Config.scalars
  simp only [scalarsOf_add, surplus_add]
  rw [hchoke, hcheckers, Selection.scalarsOf_entries, scalarsOf_texts, ← h.ignored, hoverrides, hnoChoke,
    hnoSelection, hnoIgnored, zero_add, add_zero, add_zero]
  ac_rfl

/--
What is written in a document that is read as a configuration: exactly the entries of the configuration, and so
the scalars of the configuration and those that are surplus in arrays.
-/
theorem Config.ofText_scalars {text : String} {c : Config} (h : Config.ofText text = .ok c)
    : ∃ statements entries,
        Toml.readStatements ((Toml.dropMark text.toList).length + 1) (Toml.dropMark text.toList) = some statements
          ∧ Toml.ofText? text = some entries
          ∧ c.IsWrittenAs entries
          ∧ (statements.map Toml.Statement.scalars).sum = c.scalars + surplus entries
          ∧ ((statements.map Toml.Statement.scalars).sum = c.scalars ↔ surplus entries = 0) := by
  unfold ofText at h
  split at h
  . contradiction
  . next entries hentries =>
    obtain ⟨hdistinct, statements, hstatements, hsum⟩ := Toml.ofText?_scalars hentries
    have hwritten := isWrittenAs_of_decode hdistinct (mapError_eq_ok_iff.1 h)
    have hscalars : (statements.map Toml.Statement.scalars).sum = c.scalars + surplus entries := by
      obtain ⟨l, hl, heq⟩ := hwritten
      rw [← hsum, scalars_table, heq, scalarsOf_entries hl]
    refine ⟨statements, entries, hstatements, hentries, hwritten, hscalars, ?_⟩
    rw [hscalars]
    exact add_eq_left

section Sample

def writtenText : String :=
  "enabled = []\nchoke = 3\ncheckers = [[\"a\", \"fn\", \"m\"]]\n[[override]]\nfile = \"x.rs\"\n"

def writtenConfig : Config :=
  ⟨some 3, [⟨"a", "fn", "m"⟩], ⟨some [], none⟩, [], [⟨none, some "x.rs", ⟨none, none⟩⟩]⟩

theorem Config.ofText_scalars_sample
    : Config.ofText writtenText = .ok writtenConfig
        ∧ ∃ statements, Toml.readStatements ((Toml.dropMark writtenText.toList).length + 1)
            (Toml.dropMark writtenText.toList) = some statements
          ∧ (statements.map Toml.Statement.scalars).sum = writtenConfig.scalars := by
  have hread : Config.ofText writtenText = .ok writtenConfig := by
    decide +kernel
  have hall : (Toml.ofText? writtenText).map (fun entries : List _ => surplus entries) = some 0 := by
    decide +kernel
  obtain ⟨statements, entries, hstatements, hentries, _, _, hiff⟩ := Config.ofText_scalars hread
  rw [hentries, Option.map_some, Option.some.injEq] at hall
  exact ⟨hread, statements, hstatements, hiff.2 hall⟩

def surplusText : String :=
  "checkers = [[\"a\", \"fn\", \"m\", \"extra\"]]"

theorem scalar_lost_from_surplusText
    : Config.ofText surplusText = .ok { Config.empty with checkers := [⟨"a", "fn", "m"⟩] }
        ∧ ∃ statements, Toml.readStatements ((Toml.dropMark surplusText.toList).length + 1)
            (Toml.dropMark surplusText.toList) = some statements
          ∧ Scalar.text "extra" ∈ (statements.map Toml.Statement.scalars).sum
          ∧ (statements.map Toml.Statement.scalars).sum
            ≠ Config.scalars { Config.empty with checkers := [⟨"a", "fn", "m"⟩] } := by
  have hread : Config.ofText surplusText = .ok { Config.empty with checkers := [⟨"a", "fn", "m"⟩] } := by
    decide +kernel
  have hall
      : (Toml.readStatements ((Toml.dropMark surplusText.toList).length + 1)
          (Toml.dropMark surplusText.toList)).map (fun statements => (statements.map Toml.Statement.scalars).sum)
        = some (textScalars ["a", "fn", "m", "extra"]) := by
    decide +kernel
  obtain ⟨statements, hstatements, hsum⟩ := Option.map_eq_some_iff.1 hall
  refine ⟨hread, statements, hstatements, ?_, ?_⟩
  . rw [hsum]
    decide
  . rw [hsum]
    decide

end Sample

end PatternLint
