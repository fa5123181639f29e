import PatternLint.Proofs.Toml.Scalars
import PatternLint.Toml.Document

/-!
This module contains the law of what is written in a document: each statement adds the scalars of its value to
the tree, none of them gets lost later, and no table of the tree has a key twice.
-/

namespace PatternLint.Toml

open Value (Grows)

theorem Node.entriesToValues_eq (entries : Entries)
    : entriesToValues entries = entries.map fun entry => (entry.1, entry.2.toValue) := by
  induction entries with
  | nil => rfl
  | cons entry entries ih => rw [entriesToValues, ih, List.map_cons]

theorem Node.rowsToValues_eq (tables : List Entries)
    : rowsToValues tables = tables.map fun entries => .table (entriesToValues entries) := by
  induction tables with
  | nil => rfl
  | cons entries tables ih => rw [rowsToValues, ih, List.map_cons]

namespace Entries

def toValue (entries : Entries) : Value :=
  .table (Node.entriesToValues entries)

theorem toValue_eq (entries : Entries)
    : entries.toValue = .table (entries.map fun entry => (entry.1, entry.2.toValue)) := by
  rw [toValue, Node.entriesToValues_eq]

theorem toValue_table (origin : Origin) (entries : Entries) : (Node.table origin entries).toValue = entries.toValue := by
  rw [Node.toValue, toValue]

theorem toValue_rows (tables : List Entries) : (Node.rows tables).toValue = .array (tables.map toValue) := by
  rw [Node.toValue, Node.rowsToValues_eq]
  rfl

theorem isDistinct_nil : (toValue []).IsDistinct := by
  rw [toValue_eq, List.map_nil, Value.isDistinct_table_iff]
  exact ⟨List.nodup_nil, by simp⟩

section Put

variable {entries : Entries} {key : String}

theorem find?_eq_none_iff : entries.find? key = none ↔ key ∉ entries.map Prod.fst := by
  unfold find?
  rw [Option.map_eq_none_iff, List.find?_eq_none]
  constructor
  . intro h hkey
    obtain ⟨entry, hentry, heq⟩ := List.mem_map.1 hkey
    exact h entry hentry (beq_iff_eq.2 heq)
  . intro h entry hentry heq
    exact h (List.mem_map.2 ⟨entry, hentry, beq_iff_eq.1 heq⟩)

theorem put_of_find?_eq_none (h : entries.find? key = none) (node : Node)
    : put key node entries = entries ++ [(key, node)] := by
  rw [find?_eq_none_iff] at h
  induction entries with
  | nil => rfl
  | cons entry entries ih =>
    rw [List.map_cons, List.mem_cons, not_or] at h
    rw [put, if_neg (by simpa using Ne.symm h.1), ih h.2]
    rfl

theorem exists_put_of_find?_eq_some {old : Node} (h : entries.find? key = some old)
    : ∃ before after, entries = before ++ (key, old) :: after
        ∧ ∀ node, put key node entries = before ++ (key, node) :: after := by
  induction entries with
  | nil => contradiction
  | cons entry entries ih =>
    unfold find? at h
    rw [List.find?_cons] at h
    split at h
    . next heq =>
      simp only [Option.map_some, Option.some.injEq] at h
      rw [beq_iff_eq] at heq
      refine ⟨[], entries, ?_, ?_⟩
      . rw [← heq, ← h]
        rfl
      . intro node
        rw [put, if_pos (by simpa using heq)]
        rfl
    . next hne =>
      obtain ⟨before, after, hentries, hput⟩ := ih h
      refine ⟨entry :: before, after, ?_, ?_⟩
      . rw [hentries]
        rfl
      . intro node
        rw [put, if_neg (by simpa using hne), hput]
        rfl

theorem grows_append (h : entries.find? key = none) {node : Node} (hnode : node.toValue.IsDistinct)
    : Grows node.toValue.scalars entries.toValue (toValue (entries ++ [(key, node)])) := by
  rw [find?_eq_none_iff] at h
  rw [toValue_eq, toValue_eq, List.map_append]
  apply Value.grows_new_entry _ hnode
  simpa using h

theorem grows_put {old node : Node} (h : entries.find? key = some old) {added : Multiset Scalar}
    (hgrows : Grows added old.toValue node.toValue)
    : Grows added entries.toValue (toValue (put key node entries)) := by
  obtain ⟨before, after, hentries, hput⟩ := exists_put_of_find?_eq_some h
  rw [hput, hentries, toValue_eq, toValue_eq]
  simp only [List.map_append, List.map_cons]
  exact Value.grows_entry hgrows key _ _

theorem erase_eq {before after : Entries} {old : Node} (h : ((before ++ (key, old) :: after).map Prod.fst).Nodup)
    : erase key (before ++ (key, old) :: after) = before ++ after := by
  rw [List.map_append, List.map_cons, List.nodup_middle, List.nodup_cons, List.mem_append, not_or] at h
  have hkept {part : Entries} (hpart : key ∉ part.map Prod.fst)
      : part.filter (fun entry => entry.1 != key) = part := by
    rw [List.filter_eq_self]
    intro entry hentry
    rw [bne_iff_ne]
    rintro rfl
    exact hpart (List.mem_map_of_mem hentry)
  unfold erase
  rw [List.filter_append, List.filter_cons_of_neg (by simp), hkept h.1.1, hkept h.1.2]

theorem grows_erase {old node : Node} (h : entries.find? key = some old) {added : Multiset Scalar}
    (hgrows : Grows added old.toValue node.toValue)
    : Grows added entries.toValue (toValue (entries.erase key ++ [(key, node)])) := by
  obtain ⟨before, after, hentries, _⟩ := exists_put_of_find?_eq_some h
  intro hdistinct
  have hkeys : (entries.map Prod.fst).Nodup := by
    rw [toValue_eq, Value.isDistinct_table_iff, List.map_map] at hdistinct
    exact hdistinct.1
  rw [hentries] at hkeys hdistinct ⊢
  have hmoved : (before ++ (key, node) :: after).Perm (before ++ after ++ [(key, node)]) := by
    rw [List.append_assoc]
    exact (List.perm_append_singleton (key, node) after).symm.append_left before
  have hentry : Grows added (toValue (before ++ (key, old) :: after)) (toValue (before ++ (key, node) :: after)) := by
    rw [toValue_eq, toValue_eq]
    simp only [List.map_append, List.map_cons]
    exact Value.grows_entry hgrows key _ _
  have hperm : Grows 0 (toValue (before ++ (key, node) :: after)) (toValue (before ++ after ++ [(key, node)])) := by
    rw [toValue_eq, toValue_eq]
    exact Value.grows_of_perm (hmoved.map _)
  rw [erase_eq hkeys]
  have := (hentry.trans hperm) hdistinct
  rwa [add_zero] at this

end Put

theorem grows_change {origin : Origin} {f : Origin → Entries → Option Entries} {added : Multiset Scalar}
    (hf : ∀ here entries entries', f here entries = some entries' → Grows added entries.toValue entries'.toValue)
    {keys : List String} {here : Origin} {entries entries' : Entries}
    (h : change origin f keys here entries = some entries') : Grows added entries.toValue entries'.toValue := by
  induction keys generalizing here entries entries' with
  | nil => exact hf here entries entries' h
  | cons key keys ih =>
    rw [change] at h
    split at h
    . next hnone =>
      obtain ⟨below, hbelow, rfl⟩ := Option.map_eq_some_iff.1 h
      obtain ⟨hdistinct, hscalars⟩ := ih hbelow isDistinct_nil
      rw [put_of_find?_eq_none hnone]
      rw [← toValue_table origin] at hdistinct hscalars
      have hzero : (toValue []).scalars = 0 := rfl
      rw [hzero, zero_add] at hscalars
      rw [← hscalars]
      exact grows_append hnone hdistinct
    . contradiction
    . next there below hsome =>
      split at h
      . contradiction
      . obtain ⟨below', hbelow, rfl⟩ := Option.map_eq_some_iff.1 h
        apply grows_put hsome
        rw [toValue_table, toValue_table]
        exact ih hbelow
    . next tables hsome =>
      split at h
      . contradiction
      . next last before hlast =>
        obtain ⟨last', hlast', rfl⟩ := Option.map_eq_some_iff.1 h
        have htables : tables = before.reverse ++ [last] := by
          rw [← List.reverse_reverse tables, hlast, List.reverse_cons]
        apply grows_put hsome
        rw [toValue_rows, toValue_rows, htables, List.map_append, List.map_append]
        exact Value.grows_last_item (ih hlast') _

theorem grows_assign {keys : List String} {key : String} {v : Value} (hv : v.IsDistinct)
    {entries entries' : Entries} (h : entries.assign keys key v = some entries')
    : Grows v.scalars entries.toValue entries'.toValue := by
  apply grows_change _ h
  intro here entries entries' h
  split at h
  . next hfree =>
    cases h
    have hnone : entries.find? key = none := Option.isNone_iff_eq_none.1 hfree.2
    have hnode : (Node.value v).toValue = v := by
      rw [Node.toValue]
    have := @grows_append entries key hnone (.value v)
    rw [hnode] at this
    exact this hv
  . contradiction

theorem grows_openTable {keys : List String} {key : String} {entries entries' : Entries}
    (h : entries.openTable keys key = some entries') : Grows 0 entries.toValue entries'.toValue := by
  apply grows_change _ h
  intro here entries entries' h
  split at h
  . next hnone =>
    cases h
    have hnode : (Node.table .header []).toValue.IsDistinct := by
      rw [toValue_table]
      exact isDistinct_nil
    exact grows_append hnone hnode
  . next below hsome =>
    cases h
    apply grows_erase hsome
    rw [toValue_table, toValue_table]
    exact .refl _
  . contradiction

theorem grows_openRow {keys : List String} {key : String} {entries entries' : Entries}
    (h : entries.openRow keys key = some entries') : Grows 0 entries.toValue entries'.toValue := by
  apply grows_change _ h
  intro here entries entries' h
  split at h
  . next hnone =>
    cases h
    have hnode : (Node.rows [[]]).toValue.IsDistinct := by
      rw [toValue_rows, Value.isDistinct_array_iff]
      simpa using isDistinct_nil
    exact grows_append hnone hnode
  . next tables hsome =>
    cases h
    apply grows_put hsome
    rw [toValue_rows, toValue_rows, List.map_append]
    exact Value.grows_new_item isDistinct_nil _
  . contradiction

theorem grows_ofAssignments {assignments : List (List String × String × Value)}
    (hvalues : ∀ a ∈ assignments, a.2.2.IsDistinct) {entries entries' : Entries}
    (h : assignments.foldlM (fun entries (keys, key, v) => entries.assign keys key v) entries = some entries')
    : Grows (assignments.map fun a => a.2.2.scalars).sum entries.toValue entries'.toValue := by
  induction assignments generalizing entries with
  | nil =>
    cases h
    exact .refl _
  | cons a assignments ih =>
    rw [List.forall_mem_cons] at hvalues
    rw [List.foldlM_cons] at h
    obtain ⟨next, hnext, h⟩ := Option.bind_eq_some_iff.1 h
    rw [List.map_cons, List.sum_cons]
    exact (grows_assign hvalues.1 hnext).trans (ih hvalues.2 h)

end Entries

/-! ### Statements -/

namespace Statement

def scalars : Statement → Multiset Scalar
  | assign _ v => v.scalars
  | header _ | rowHeader _ => 0

def IsDistinct : Statement → Prop
  | assign _ v => v.IsDistinct
  | header _ | rowHeader _ => True

end Statement

theorem Draft.grows_apply {d d' : Draft} {statement : Statement} (hstatement : statement.IsDistinct)
    (h : d.apply statement = some d') : Grows statement.scalars d.root.toValue d'.root.toValue := by
  cases statement with
  | assign key v =>
    obtain ⟨root, hroot, h⟩ := Option.bind_eq_some_iff.1 h
    cases h
    apply Entries.grows_change _ hroot
    intro here entries entries' h
    exact Entries.grows_assign hstatement h
  | header key =>
    obtain ⟨root, hroot, h⟩ := Option.bind_eq_some_iff.1 h
    cases h
    exact Entries.grows_openTable hroot
  | rowHeader key =>
    obtain ⟨root, hroot, h⟩ := Option.bind_eq_some_iff.1 h
    cases h
    exact Entries.grows_openRow hroot

theorem Draft.grows_foldlM {d d' : Draft} {statements : List Statement} (hall : ∀ s ∈ statements, s.IsDistinct)
    (h : statements.foldlM Draft.apply d = some d')
    : Grows (statements.map Statement.scalars).sum d.root.toValue d'.root.toValue := by
  induction statements generalizing d with
  | nil =>
    cases h
    exact .refl _
  | cons statement statements ih =>
    rw [List.forall_mem_cons] at hall
    rw [List.foldlM_cons] at h
    obtain ⟨next, hnext, h⟩ := Option.bind_eq_some_iff.1 h
    rw [List.map_cons, List.sum_cons]
    exact (grows_apply hall.1 hnext).trans (ih hall.2 h)

/-! ### Readers -/

section Readers

def ReadsDistinct (readItem : Reader Value) : Prop :=
  ∀ cs v rest, readItem cs = some (v, rest) → v.IsDistinct

theorem isDistinct_of_integer? {negative : Bool} {magnitude : Nat} {v : Value}
    (h : integer? negative magnitude = some v) : v.IsDistinct := by
  unfold integer? at h
  generalize (if negative then -(magnitude : Int) else magnitude) = n at h
  dsimp only at h
  split at h
  . cases h
    exact trivial
  . contradiction

theorem isDistinct_of_float? {negative : Bool} {whole fraction : List Char} {exponent : Int} {v : Value}
    (h : float? negative whole fraction exponent = some v) : v.IsDistinct := by
  unfold float? at h
  dsimp only at h
  split at h
  . contradiction
  . cases h
    exact trivial

theorem readsDistinct_readBased (base : Nat) (isDigit : Char → Bool) : ReadsDistinct (readBased base isDigit) := by
  intro cs v rest h
  obtain ⟨_, _, h⟩ := Option.bind_eq_some_iff.1 h
  obtain ⟨n, hn, h⟩ := Option.bind_eq_some_iff.1 h
  cases h
  exact isDistinct_of_integer? hn

theorem readsDistinct_readDecimal (negative : Bool) : ReadsDistinct (readDecimal negative) := by
  intro cs v rest h
  obtain ⟨_, _, h⟩ := Option.bind_eq_some_iff.1 h
  obtain ⟨_, _, h⟩ := Option.bind_eq_some_iff.1 h
  obtain ⟨_, _, h⟩ := Option.bind_eq_some_iff.1 h
  dsimp only at h
  split at h
  . obtain ⟨n, hn, h⟩ := Option.bind_eq_some_iff.1 h
    cases h
    exact isDistinct_of_integer? hn
  . obtain ⟨x, hx, h⟩ := Option.bind_eq_some_iff.1 h
    cases h
    exact isDistinct_of_float? hx

theorem readsDistinct_readNumber : ReadsDistinct readNumber := by
  intro cs v rest h
  unfold readNumber at h
  split at h
  . exact readsDistinct_readBased _ _ _ _ _ h
  . exact readsDistinct_readBased _ _ _ _ _ h
  . exact readsDistinct_readBased _ _ _ _ _ h
  . dsimp only at h
    unfold readMagnitude at h
    split at h
    . cases h
      exact trivial
    . cases h
      exact trivial
    . exact readsDistinct_readDecimal _ _ _ _ h

theorem readsDistinct_readMoment : ReadsDistinct readMoment := by
  intro cs v rest h
  unfold readMoment at h
  dsimp only at h
  split at h
  . obtain ⟨_, _, h⟩ := Option.bind_eq_some_iff.1 h
    obtain ⟨_, _, h⟩ := Option.bind_eq_some_iff.1 h
    cases h
    exact trivial
  . obtain ⟨_, _, h⟩ := Option.bind_eq_some_iff.1 h
    cases h
    exact trivial

theorem readsDistinct_readMomentOrNumber : ReadsDistinct readMomentOrNumber := by
  intro cs v rest h
  unfold readMomentOrNumber at h
  split at h
  . exact readsDistinct_readMoment _ _ _ h
  . exact readsDistinct_readNumber _ _ _ h

variable {readItem : Reader Value}

theorem isDistinct_of_readItems (hitem : ReadsDistinct readItem) {bound : Nat} {cs rest : List Char}
    {items : List Value} (h : readItems readItem bound cs = some (items, rest))
    : ∀ item ∈ items, item.IsDistinct := by
  induction bound generalizing cs items with
  | zero => contradiction
  | succ bound ih =>
    rw [readItems] at h
    obtain ⟨_, _, h⟩ := Option.bind_eq_some_iff.1 h
    split at h
    . cases h
      simp
    . obtain ⟨⟨item, _⟩, hread, h⟩ := Option.bind_eq_some_iff.1 h
      obtain ⟨_, _, h⟩ := Option.bind_eq_some_iff.1 h
      split at h
      . obtain ⟨⟨others, _⟩, hothers, h⟩ := Option.bind_eq_some_iff.1 h
        cases h
        rw [List.forall_mem_cons]
        exact ⟨hitem _ _ _ hread, ih hothers⟩
      . cases h
        rw [List.forall_mem_singleton]
        exact hitem _ _ _ hread
      . contradiction

theorem isDistinct_of_readAssignment (hitem : ReadsDistinct readItem) {cs rest : List Char} {key : Key} {v : Value}
    (h : readAssignment readItem cs = some ((key, v), rest)) : v.IsDistinct := by
  obtain ⟨_, _, h⟩ := Option.bind_eq_some_iff.1 h
  obtain ⟨_, _, h⟩ := Option.bind_eq_some_iff.1 h
  obtain ⟨_, hread, h⟩ := Option.bind_eq_some_iff.1 h
  cases h
  exact hitem _ _ _ hread

theorem isDistinct_of_readAssignments (hitem : ReadsDistinct readItem) {bound : Nat} {cs rest : List Char}
    {assignments : List (Key × Value)} (h : readAssignments readItem bound cs = some (assignments, rest))
    : ∀ a ∈ assignments, a.2.IsDistinct := by
  induction bound generalizing cs assignments with
  | zero => contradiction
  | succ bound ih =>
    rw [readAssignments] at h
    obtain ⟨⟨assignment, _⟩, hread, h⟩ := Option.bind_eq_some_iff.1 h
    dsimp only at h
    split at h
    . obtain ⟨⟨others, _⟩, hothers, h⟩ := Option.bind_eq_some_iff.1 h
      cases h
      rw [List.forall_mem_cons]
      exact ⟨isDistinct_of_readAssignment hitem hread, ih hothers⟩
    . cases h
      rw [List.forall_mem_singleton]
      exact isDistinct_of_readAssignment hitem hread
    . contradiction

theorem isDistinct_inlineTable {assignments : List (Key × Value)} (hvalues : ∀ a ∈ assignments, a.2.IsDistinct)
    {v : Value} (h : inlineTable assignments = some v)
    : v.IsDistinct ∧ v.scalars = (assignments.map fun a => a.2.scalars).sum := by
  obtain ⟨entries, hentries, h⟩ := Option.bind_eq_some_iff.1 h
  cases h
  have hmapped : ∀ a ∈ assignments.map fun a => (a.1.parents, a.1.name, a.2), a.2.2.IsDistinct := by
    rw [List.forall_mem_map]
    exact hvalues
  obtain ⟨hdistinct, hscalars⟩ := Entries.grows_ofAssignments hmapped hentries Entries.isDistinct_nil
  refine ⟨hdistinct, ?_⟩
  have hzero : (Entries.toValue []).scalars = 0 := rfl
  rw [List.map_map, hzero, zero_add] at hscalars
  exact hscalars

theorem readsDistinct_readInlineTable (hitem : ReadsDistinct readItem) : ReadsDistinct (readInlineTable readItem) := by
  intro cs v rest h
  unfold readInlineTable at h
  split at h
  . cases h
    exact Entries.isDistinct_nil
  . obtain ⟨⟨assignments, _⟩, hread, h⟩ := Option.bind_eq_some_iff.1 h
    obtain ⟨table, htable, h⟩ := Option.bind_eq_some_iff.1 h
    cases h
    exact (isDistinct_inlineTable (isDistinct_of_readAssignments hitem hread) htable).1

theorem readsDistinct_readValue_of_below {depth : Nat}
    (hbelow : ∀ below, depth = below + 1 → ReadsDistinct (readValue below)) : ReadsDistinct (readValue depth) := by
  intro cs v rest h
  cases cs with
  | nil =>
    rw [readValue] at h
    contradiction
  | cons c cs =>
    unfold readValue at h
    split at h
    . obtain ⟨_, _, h⟩ := Option.map_eq_some_iff.1 h
      cases h
      exact trivial
    . obtain ⟨_, _, h⟩ := Option.map_eq_some_iff.1 h
      cases h
      exact trivial
    . cases depth with
      | zero => contradiction
      | succ below =>
        obtain ⟨⟨items, _⟩, hread, h⟩ := Option.map_eq_some_iff.1 h
        cases h
        exact Value.isDistinct_array_iff.2 (isDistinct_of_readItems (hbelow below rfl) hread)
    . cases depth with
      | zero => contradiction
      | succ below => exact readsDistinct_readInlineTable (hbelow below rfl) _ _ _ h
    . obtain ⟨_, _, h⟩ := Option.map_eq_some_iff.1 h
      cases h
      exact trivial
    . obtain ⟨_, _, h⟩ := Option.map_eq_some_iff.1 h
      cases h
      exact trivial
    . exact readsDistinct_readMomentOrNumber _ _ _ h

theorem readsDistinct_readValue (depth : Nat) : ReadsDistinct (readValue depth) := by
  induction depth with
  | zero =>
    apply readsDistinct_readValue_of_below
    intro below h
    contradiction
  | succ depth ih =>
    apply readsDistinct_readValue_of_below
    intro below h
    cases h
    exact ih

theorem isDistinct_of_readStatement {cs rest : List Char} {statement : Statement}
    (h : readStatement cs = some (statement, rest)) : statement.IsDistinct := by
  unfold readStatement at h
  split at h
  . obtain ⟨_, _, h⟩ := Option.bind_eq_some_iff.1 h
    obtain ⟨_, _, h⟩ := Option.bind_eq_some_iff.1 h
    obtain ⟨_, _, h⟩ := Option.bind_eq_some_iff.1 h
    obtain ⟨_, _, h⟩ := Option.bind_eq_some_iff.1 h
    cases h
    exact trivial
  . obtain ⟨_, _, h⟩ := Option.bind_eq_some_iff.1 h
    obtain ⟨_, _, h⟩ := Option.bind_eq_some_iff.1 h
    obtain ⟨_, _, h⟩ := Option.bind_eq_some_iff.1 h
    cases h
    exact trivial
  . obtain ⟨⟨⟨key, v⟩, _⟩, hread, h⟩ := Option.bind_eq_some_iff.1 h
    obtain ⟨_, _, h⟩ := Option.bind_eq_some_iff.1 h
    cases h
    exact isDistinct_of_readAssignment (readsDistinct_readValue maxNesting) hread

theorem isDistinct_of_readStatements {bound : Nat} {cs : List Char} {statements : List Statement}
    (h : readStatements bound cs = some statements) : ∀ s ∈ statements, s.IsDistinct := by
  induction bound generalizing cs statements with
  | zero => contradiction
  | succ bound ih =>
    rw [readStatements] at h
    split at h
    . cases h
      simp
    . split at h
      . obtain ⟨⟨statement, _⟩, hread, h⟩ := Option.bind_eq_some_iff.1 h
        obtain ⟨others, hothers, h⟩ := Option.bind_eq_some_iff.1 h
        cases h
        rw [List.forall_mem_cons]
        exact ⟨isDistinct_of_readStatement hread, ih hothers⟩
      . obtain ⟨_, _, h⟩ := Option.bind_eq_some_iff.1 h
        exact ih h

end Readers

/--
The tree of a document: no table in it has a key twice, and its scalars are those of the statements, each as
often as it is written.
-/
theorem ofText?_scalars {text : String} {entries : List (String × Value)} (h : ofText? text = some entries)
    : (Value.table entries).IsDistinct
        ∧ ∃ statements, readStatements ((dropMark text.toList).length + 1) (dropMark text.toList) = some statements
          ∧ (Value.table entries).scalars = (statements.map Statement.scalars).sum := by
  obtain ⟨statements, hstatements, h⟩ := Option.bind_eq_some_iff.1 h
  obtain ⟨draft, hdraft, h⟩ := Option.bind_eq_some_iff.1 h
  cases h
  obtain ⟨hdistinct, hscalars⟩ :=
    Draft.grows_foldlM (isDistinct_of_readStatements hstatements) hdraft Entries.isDistinct_nil
  have hzero : (Entries.toValue []).scalars = 0 := rfl
  rw [hzero, zero_add] at hscalars
  exact ⟨hdistinct, statements, hstatements, hscalars⟩

end PatternLint.Toml
