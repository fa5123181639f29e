import Mathlib.Data.List.Forall2
import PatternLint.Config.Decode
import PatternLint.Proofs.Except
import PatternLint.Proofs.Toml.Document

/-!
This module contains the law of reading a configuration: the configuration is laid out in the document entry by
entry, in tables and in arrays.
-/

namespace PatternLint

open Toml (Value)

/-! ### Layout -/

def entryOf {α : Type} (name : String) (written : α → Value) (field : Option α) : Multiset (String × Value) :=
  field.elim 0 fun a => {(name, written a)}

def textsValue (texts : List String) : Value :=
  .array (texts.map .text)

def CheckerDraft.entries (d : CheckerDraft) : Multiset (String × Value) :=
  entryOf "name" .text d.name + entryOf "pattern" .text d.pattern + entryOf "message" .text d.message

def Selection.entries (s : Selection) : Multiset (String × Value) :=
  entryOf "enabled" textsValue s.enabled + entryOf "disabled" textsValue s.disabled

def CheckerEntry.entries (c : CheckerEntry) : Multiset (String × Value) :=
  CheckerDraft.entries ⟨some c.name, some c.pattern, some c.message⟩

def OverrideEntry.entries (e : OverrideEntry) : Multiset (String × Value) :=
  entryOf "package" .text e.package + entryOf "file" .text e.file + e.selection.entries

def recordEntries? (fields : List String) : Value → Option (List (String × Value))
  | .table entries => some entries
  | .array items => some (fields.zip items)
  | _ => none

def CheckerEntry.IsWrittenAs (c : CheckerEntry) (v : Value) : Prop :=
  ∃ entries : List (String × Value), recordEntries? CheckerDraft.fields v = some entries ∧ c.entries = entries

def OverrideEntry.IsWrittenAs (e : OverrideEntry) (v : Value) : Prop :=
  ∃ entries : List (String × Value), recordEntries? OverrideEntry.fields v = some entries ∧ e.entries = entries

structure Config.Layout where
  checkers : Option (List Value)
  ignored : Option (List String)
  overrides : Option (List Value)

def Config.entries (c : Config) (l : Layout) : Multiset (String × Value) :=
  entryOf "choke" (fun n : Nat => .integer n) c.choke + entryOf "checkers" .array l.checkers + c.selection.entries
    + entryOf "ignored" textsValue l.ignored + entryOf "override" .array l.overrides

structure Config.Layout.Holds (l : Config.Layout) (c : Config) : Prop where
  checkers : List.Forall₂ CheckerEntry.IsWrittenAs c.checkers (l.checkers.getD [])
  ignored : c.ignored = l.ignored.getD []
  overrides : List.Forall₂ OverrideEntry.IsWrittenAs c.overrides (l.overrides.getD [])

def Config.IsWrittenAs (c : Config) (entries : Multiset (String × Value)) : Prop :=
  ∃ l : Layout, l.Holds c ∧ entries = c.entries l

section EntryOf

variable {α : Type} {name : String} {written : α → Value} {field : Option α}

@[simp]
theorem entryOf_none : entryOf name written none = 0 := by
  rfl

@[simp]
theorem entryOf_some (a : α) : entryOf name written (some a) = {(name, written a)} := by
  rfl

theorem entryOf_set (hnew : name ∉ (entryOf name written field).map Prod.fst) {a : α} {v : Value} (hv : v = written a)
    : entryOf name written (some a) = entryOf name written field + {(name, v)} := by
  cases field with
  | none => rw [hv, entryOf_none, zero_add, entryOf_some]
  | some b => simp at hnew

theorem mem_entryOf_iff {key : String} {v : Value}
    : (key, v) ∈ entryOf name written field ↔ key = name ∧ ∃ a, field = some a ∧ v = written a := by
  cases field <;> simp

end EntryOf

theorem Config.IsWrittenAs.mem_iff {c : Config} {entries : Multiset (String × Value)} (h : c.IsWrittenAs entries)
    (v : Value)
    : (("enabled", v) ∈ entries ↔ ∃ names, c.selection.enabled = some names ∧ v = textsValue names)
        ∧ (("disabled", v) ∈ entries ↔ ∃ names, c.selection.disabled = some names ∧ v = textsValue names) := by
  obtain ⟨l, _, rfl⟩ := h
  simp [Config.entries, Selection.entries, mem_entryOf_iff]

/-! ### Steps -/

theorem decodeText_eq_ok_iff {v : Value} {s : String} : decodeText v = .ok s ↔ v = .text s := by
  cases v <;> simp [decodeText, wrongType]

theorem decodeCount_eq_ok {v : Value} {n : Nat} (h : decodeCount v = .ok n) : v = .integer n := by
  cases v with
  | integer m =>
    change (if 0 ≤ m then Except.ok m.toNat else _) = _ at h
    split at h
    . next hm =>
      cases h
      rw [Int.toNat_of_nonneg hm]
    . contradiction
  | _ => contradiction

theorem decodeList_eq_ok {α : Type} {decode : Value → Except ConfigFault α} {v : Value} {as : List α}
    (h : decodeList decode v = .ok as)
    : ∃ items, v = .array items ∧ List.Forall₂ (fun a item => decode item = .ok a) as items := by
  cases v with
  | array items =>
    refine ⟨items, rfl, ?_⟩
    change items.mapM decode = .ok as at h
    induction items generalizing as with
    | nil =>
      cases h
      exact .nil
    | cons item items ih =>
      rw [List.mapM_cons, bind_eq_ok_iff] at h
      obtain ⟨a, ha, h⟩ := h
      obtain ⟨others, hothers, h⟩ := bind_eq_ok_iff.1 h
      cases h
      exact .cons ha (ih hothers)
  | _ => contradiction

theorem decodeTexts_eq_ok {v : Value} {texts : List String} (h : decodeTexts v = .ok texts) : v = textsValue texts := by
  obtain ⟨items, rfl, hitems⟩ := decodeList_eq_ok h
  unfold textsValue
  congr 1
  clear h
  induction hitems with
  | nil => rfl
  | cons hitem _ ih => rw [List.map_cons, decodeText_eq_ok_iff.1 hitem, ih]

theorem CheckerDraft.entries_decodeField {d d' : CheckerDraft} {field : String × Value}
    (hnew : field.1 ∉ d.entries.map Prod.fst) (h : decodeField d field = .ok d')
    : d'.entries = d.entries + {field} := by
  obtain ⟨name, v⟩ := field
  unfold entries at hnew ⊢
  simp only [Multiset.map_add, Multiset.mem_add, not_or] at hnew
  obtain ⟨⟨hname, hpattern⟩, hmessage⟩ := hnew
  unfold decodeField at h
  dsimp only at h
  split at h
  . obtain ⟨s, hs, h⟩ := bind_eq_ok_iff.1 h
    cases h
    rw [entryOf_set hname (decodeText_eq_ok_iff.1 hs)]
    ac_rfl
  . obtain ⟨s, hs, h⟩ := bind_eq_ok_iff.1 h
    cases h
    rw [entryOf_set hpattern (decodeText_eq_ok_iff.1 hs)]
    ac_rfl
  . obtain ⟨s, hs, h⟩ := bind_eq_ok_iff.1 h
    cases h
    rw [entryOf_set hmessage (decodeText_eq_ok_iff.1 hs)]
    ac_rfl
  . contradiction

theorem OverrideEntry.entries_decodeField {e e' : OverrideEntry} {field : String × Value}
    (hnew : field.1 ∉ e.entries.map Prod.fst) (h : decodeField e field = .ok e')
    : e'.entries = e.entries + {field} := by
  obtain ⟨name, v⟩ := field
  unfold entries Selection.entries at hnew ⊢
  simp only [Multiset.map_add, Multiset.mem_add, not_or] at hnew
  obtain ⟨⟨hpackage, hfile⟩, henabled, hdisabled⟩ := hnew
  unfold decodeField at h
  dsimp only at h
  split at h
  . obtain ⟨s, hs, h⟩ := bind_eq_ok_iff.1 h
    cases h
    rw [entryOf_set hpackage (decodeText_eq_ok_iff.1 hs)]
    ac_rfl
  . obtain ⟨s, hs, h⟩ := bind_eq_ok_iff.1 h
    cases h
    rw [entryOf_set hfile (decodeText_eq_ok_iff.1 hs)]
    ac_rfl
  . obtain ⟨texts, htexts, h⟩ := bind_eq_ok_iff.1 h
    cases h
    rw [entryOf_set henabled (decodeTexts_eq_ok htexts)]
    ac_rfl
  . obtain ⟨texts, htexts, h⟩ := bind_eq_ok_iff.1 h
    cases h
    rw [entryOf_set hdisabled (decodeTexts_eq_ok htexts)]
    ac_rfl
  . contradiction

/-! ### Runs -/

theorem foldlM_isWritten {α : Type} {decodeField : α → String × Value → Except ConfigFault α}
    {IsWritten : α → Multiset (String × Value) → Prop}
    (hstep : ∀ a a' written field, IsWritten a written → field.1 ∉ written.map Prod.fst → field.2.IsDistinct
      → decodeField a field = .ok a' → IsWritten a' (written + {field}))
    {a a' : α} {written : Multiset (String × Value)} {entries : List (String × Value)}
    (hkeys : ((written + entries).map Prod.fst).Nodup) (hvalues : ∀ entry ∈ entries, entry.2.IsDistinct)
    (ha : IsWritten a written) (h : entries.foldlM decodeField a = .ok a') : IsWritten a' (written + entries) := by
  induction entries generalizing a written with
  | nil =>
    cases h
    rwa [Multiset.coe_nil, add_zero]
  | cons field entries ih =>
    obtain ⟨next, hnext, h⟩ := bind_eq_ok_iff.1 h
    rw [List.forall_mem_cons] at hvalues
    have hmoved : written + ↑(field :: entries) = written + {field} + ↑entries := by
      rw [add_assoc, Multiset.singleton_add, Multiset.cons_coe]
    rw [hmoved] at hkeys ⊢
    have hfield : field.1 ∉ written.map Prod.fst := by
      rw [Multiset.map_add, Multiset.map_add, Multiset.nodup_add, Multiset.nodup_add] at hkeys
      rw [← Multiset.disjoint_singleton]
      exact hkeys.1.2.2
    exact ih hkeys hvalues.2 (hstep _ _ _ _ ha hfield hvalues.1 hnext) h

theorem map_fst_zip_isPrefix {α β : Type} (as : List α) (bs : List β) : (as.zip bs).map Prod.fst <+: as := by
  induction as generalizing bs with
  | nil => simp
  | cons a as ih =>
    cases bs with
    | nil => simp
    | cons b bs => simpa using ih bs

theorem isDistinct_recordEntries? {fields : List String} (hfields : fields.Nodup) {v : Value} (hv : v.IsDistinct)
    {entries : List (String × Value)} (h : recordEntries? fields v = some entries)
    : (entries.map Prod.fst).Nodup ∧ ∀ entry ∈ entries, entry.2.IsDistinct := by
  unfold recordEntries? at h
  split at h
  . cases h
    exact Value.isDistinct_table_iff.1 hv
  . cases h
    refine ⟨hfields.sublist (map_fst_zip_isPrefix _ _).sublist, ?_⟩
    intro entry hentry
    exact Value.isDistinct_array_iff.1 hv _ (List.of_mem_zip hentry).2
  . contradiction

theorem decodeFields_eq_ok {α : Type} {expected : ExpectedValue} {fields : List String}
    {decodeField : α → String × Value → Except ConfigFault α} {start a : α} {v : Value}
    (hmoment : ∀ s, decodeField start (momentField, s) ≠ .ok a)
    (h : decodeFields expected fields decodeField start v = .ok a)
    : ∃ entries, recordEntries? fields v = some entries ∧ entries.foldlM decodeField start = .ok a := by
  unfold decodeFields at h
  split at h
  . exact ⟨_, rfl, h⟩
  . exact absurd h (hmoment _)
  . exact ⟨_, rfl, h⟩
  . contradiction

theorem CheckerDraft.finish_eq_ok {d : CheckerDraft} {c : CheckerEntry} (h : d.finish = .ok c)
    : d = ⟨some c.name, some c.pattern, some c.message⟩ := by
  have hrequire {name : String} {field : Option String} {s : String} (hs : require name field = .ok s)
      : field = some s := by
    cases field with
    | none => contradiction
    | some other =>
      cases hs
      rfl
  obtain ⟨name, hname, h⟩ := bind_eq_ok_iff.1 h
  obtain ⟨pattern, hpattern, h⟩ := bind_eq_ok_iff.1 h
  obtain ⟨message, hmessage, h⟩ := bind_eq_ok_iff.1 h
  cases h
  rw [← hrequire hname, ← hrequire hpattern, ← hrequire hmessage]

theorem CheckerEntry.isWrittenAs_of_decode {v : Value} (hv : v.IsDistinct) {c : CheckerEntry} (h : decode v = .ok c)
    : c.IsWrittenAs v := by
  obtain ⟨draft, hdraft, h⟩ := bind_eq_ok_iff.1 h
  have hfinish : draft.finish = .ok c := by
    split at h
    . split at h
      . contradiction
      . exact h
    . exact h
  rw [CheckerDraft.finish_eq_ok hfinish] at hdraft
  obtain ⟨entries, hentries, hfold⟩ := decodeFields_eq_ok (by intro s h; contradiction) hdraft
  obtain ⟨hkeys, hvalues⟩ := isDistinct_recordEntries? (by decide) hv hentries
  refine ⟨entries, hentries, ?_⟩
  have hrun := @foldlM_isWritten _ CheckerDraft.decodeField (fun d written => d.entries = written) ?_ _ _ 0 entries
    (by simpa using hkeys) hvalues rfl hfold
  . rwa [zero_add] at hrun
  . rintro d d' _ field rfl hnew _ h
    exact CheckerDraft.entries_decodeField hnew h

theorem OverrideEntry.isWrittenAs_of_decode {v : Value} (hv : v.IsDistinct) {e : OverrideEntry}
    (h : decode v = .ok e) : e.IsWrittenAs v := by
  obtain ⟨entries, hentries, hfold⟩ := decodeFields_eq_ok (by intro s h; contradiction) h
  obtain ⟨hkeys, hvalues⟩ := isDistinct_recordEntries? (by decide) hv hentries
  refine ⟨entries, hentries, ?_⟩
  have hrun := @foldlM_isWritten _ OverrideEntry.decodeField (fun e written => e.entries = written) ?_ _ _ 0 entries
    (by simpa using hkeys) hvalues rfl hfold
  . rwa [zero_add] at hrun
  . rintro e e' _ field rfl hnew _ h
    exact OverrideEntry.entries_decodeField hnew h

theorem forall₂_isWrittenAs {α : Type} {decode : Value → Except ConfigFault α} {IsWrittenAs : α → Value → Prop}
    (hdecode : ∀ {v}, v.IsDistinct → ∀ {a}, decode v = .ok a → IsWrittenAs a v) {items : List Value} {as : List α}
    (hitems : (Value.array items).IsDistinct) (h : List.Forall₂ (fun a item => decode item = .ok a) as items)
    : List.Forall₂ IsWrittenAs as items := by
  rw [Value.isDistinct_array_iff] at hitems
  induction h with
  | nil => exact .nil
  | cons hitem _ ih =>
    rw [List.forall_mem_cons] at hitems
    exact .cons (hdecode hitems.1 hitem) (ih hitems.2)

theorem Config.isWrittenAs_decodeField {c c' : Config} {written : Multiset (String × Value)} {field : String × Value}
    (hc : c.IsWrittenAs written) (hnew : field.1 ∉ written.map Prod.fst) (hfield : field.2.IsDistinct)
    (h : decodeField c field = .ok c') : c'.IsWrittenAs (written + {field}) := by
  obtain ⟨name, v⟩ := field
  obtain ⟨l, ⟨hcheckers, hignored, hoverrides⟩, rfl⟩ := hc
  unfold Config.entries Selection.entries at hnew
  simp only [Multiset.map_add, Multiset.mem_add, not_or] at hnew
  obtain ⟨⟨⟨⟨hnewChoke, hnewCheckers⟩, hnewEnabled, hnewDisabled⟩, hnewIgnored⟩, hnewOverrides⟩ := hnew
  unfold decodeField at h
  dsimp only at h
  split at h
  . obtain ⟨n, hn, h⟩ := bind_eq_ok_iff.1 h
    cases h
    refine ⟨l, ⟨hcheckers, hignored, hoverrides⟩, ?_⟩
    unfold Config.entries
    rw [entryOf_set hnewChoke (decodeCount_eq_ok hn)]
    ac_rfl
  . obtain ⟨checkers, hread, h⟩ := bind_eq_ok_iff.1 h
    cases h
    obtain ⟨items, rfl, hitems⟩ := decodeList_eq_ok hread
    refine ⟨{ l with checkers := some items }, ⟨?_, hignored, hoverrides⟩, ?_⟩
    . exact forall₂_isWrittenAs CheckerEntry.isWrittenAs_of_decode hfield hitems
    . unfold Config.entries
      rw [entryOf_set hnewCheckers rfl]
      ac_rfl
  . obtain ⟨texts, htexts, h⟩ := bind_eq_ok_iff.1 h
    cases h
    refine ⟨l, ⟨hcheckers, hignored, hoverrides⟩, ?_⟩
    unfold Config.entries Selection.entries
    rw [entryOf_set hnewEnabled (decodeTexts_eq_ok htexts)]
    ac_rfl
  . obtain ⟨texts, htexts, h⟩ := bind_eq_ok_iff.1 h
    cases h
    refine ⟨l, ⟨hcheckers, hignored, hoverrides⟩, ?_⟩
    unfold Config.entries Selection.entries
    rw [entryOf_set hnewDisabled (decodeTexts_eq_ok htexts)]
    ac_rfl
  . obtain ⟨texts, htexts, h⟩ := bind_eq_ok_iff.1 h
    cases h
    refine ⟨{ l with ignored := some texts }, ⟨hcheckers, rfl, hoverrides⟩, ?_⟩
    unfold Config.entries
    rw [entryOf_set hnewIgnored (decodeTexts_eq_ok htexts)]
    ac_rfl
  . obtain ⟨overrides, hread, h⟩ := bind_eq_ok_iff.1 h
    cases h
    obtain ⟨items, rfl, hitems⟩ := decodeList_eq_ok hread
    refine ⟨{ l with overrides := some items }, ⟨hcheckers, hignored, ?_⟩, ?_⟩
    . exact forall₂_isWrittenAs OverrideEntry.isWrittenAs_of_decode hfield hitems
    . unfold Config.entries
      rw [entryOf_set hnewOverrides rfl]
      ac_rfl
  . contradiction

theorem Config.isWrittenAs_of_decode {entries : List (String × Value)} (hentries : (Value.table entries).IsDistinct)
    {c : Config} (h : decode entries = .ok c) : c.IsWrittenAs entries := by
  obtain ⟨hkeys, hvalues⟩ := Value.isDistinct_table_iff.1 hentries
  have hstart : Config.empty.IsWrittenAs 0 := ⟨⟨none, none, none⟩, ⟨.nil, rfl, .nil⟩, rfl⟩
  have hrun := foldlM_isWritten (fun _ _ _ _ => Config.isWrittenAs_decodeField) (by simpa using hkeys) hvalues
    hstart h
  rwa [zero_add] at hrun

end PatternLint
