import Mathlib.Data.List.Induction
import Mathlib.Data.List.Nodup
import SchemaInstaller.Introspection.Grouping

/-!
# Rows in their groups

Rows are put into groups one after another. What has been grouped so far is always right
(`IsGrouped`): the groups stand in the order in which their names appeared, and each has its first
row and all of its rows in their order. One more row keeps it so (`IsGrouped.addRow`), hence so do
all rows (`isGrouped_grouped`), and the indexes, constraints and foreign keys that are made of the
groups lose no row, mix none and keep their columns in line (`rows_grouped`).
-/

namespace SchemaInstaller.Introspection

section Rows

variable {α : Type} {name : α → String} {rows : List α} {groups : List (Group α)} {row : α}

/-! ## Names in the order of their first rows -/

theorem nodup_eraseDups (names : List String) : names.eraseDups.Nodup := by
  induction h : names.length using Nat.strongRecOn generalizing names with
  | ind k ih =>
    cases names with
    | nil => exact List.nodup_nil
    | cons n names =>
      have hshort : (names.filter fun m => !m == n).length < k := by
        rw [← h, List.length_cons]
        exact Nat.lt_succ_of_le (List.length_filter_le _ _)
      rw [List.eraseDups_cons, List.nodup_cons]
      refine ⟨fun hin => ?_, ih _ hshort _ rfl⟩
      have hne := (List.mem_filter.1 (List.mem_eraseDups.1 hin)).2
      simp at hne

/-- A name that comes behind others is new or has its place already. -/
theorem eraseDups_concat (names : List String) (n : String) :
    (names ++ [n]).eraseDups =
      if n ∈ names then names.eraseDups else names.eraseDups ++ [n] := by
  rw [List.eraseDups_append]
  by_cases h : n ∈ names
  · simp [h, List.removeAll]
  · simp [h, List.removeAll, List.eraseDups_cons]

/-! ## One row after another -/

/-- The groups of some rows: their names in the order of first appearance, and for each group its
first row and all its rows. -/
structure IsGrouped (name : α → String) (rows : List α) (groups : List (Group α)) : Prop where
  names : groups.map (fun g => name g.first) = (rows.map name).eraseDups
  first : ∀ g ∈ groups, rows.find? (name · = name g.first) = some g.first
  rows : ∀ g ∈ groups, g.rows = rows.filter (name · = name g.first)

theorem addRow_of_notMem (h : name row ∉ groups.map fun g => name g.first) :
    addRow name row groups = groups ++ [⟨row, [row]⟩] := by
  induction groups with
  | nil => rfl
  | cons g groups ih =>
    rw [List.map_cons, List.mem_cons, not_or] at h
    rw [addRow, if_neg (Ne.symm h.1), ih h.2, List.cons_append]

/-- A row is put into the one group of its name. -/
theorem addRow_of_mem (hnodup : (groups.map fun g => name g.first).Nodup)
    (h : name row ∈ groups.map fun g => name g.first) :
    addRow name row groups = groups.map fun g =>
      if name g.first = name row then ⟨g.first, g.rows ++ [row]⟩ else g := by
  induction groups with
  | nil => cases h
  | cons g groups ih =>
    rw [List.map_cons, List.nodup_cons] at hnodup
    rw [addRow, List.map_cons]
    by_cases hg : name g.first = name row
    · -- no later group has this name
      have hrest : ∀ g' ∈ groups, ¬name g'.first = name row := fun g' hg' heq =>
        hnodup.1 (hg ▸ heq ▸ List.mem_map_of_mem hg')
      rw [if_pos hg, if_pos hg]
      refine congrArg _ ((List.map_congr_left fun g' hg' => ?_).trans (List.map_id _)).symm
      exact if_neg (hrest g' hg')
    · rw [List.map_cons, List.mem_cons] at h
      rw [if_neg hg, if_neg hg, ih hnodup.2 (h.resolve_left fun heq => hg heq.symm)]

/-- The rows of a name once one more row is there. -/
theorem filter_concat (n : String) : (rows ++ [row]).filter (name · = n) =
    if n = name row then rows.filter (name · = n) ++ [row] else rows.filter (name · = n) := by
  rw [List.filter_append]
  by_cases h : n = name row
  · simp [h]
  · simp [h, Ne.symm h]

/-- One more row keeps the groups right. -/
theorem IsGrouped.addRow (h : IsGrouped name rows groups) (row : α) :
    IsGrouped name (rows ++ [row]) (addRow name row groups) := by
  have hmem : name row ∈ groups.map (fun g => name g.first) ↔ name row ∈ rows.map name := by
    rw [h.names, List.mem_eraseDups]
  have hfind : ∀ g ∈ groups, (rows ++ [row]).find? (name · = name g.first) = some g.first := by
    intro g hg
    rw [List.find?_append, h.first g hg]
    rfl
  have hnames := eraseDups_concat (rows.map name) (name row)
  by_cases hrow : name row ∈ rows.map name
  · have hnodup : (groups.map fun g => name g.first).Nodup := h.names ▸ nodup_eraseDups _
    rw [addRow_of_mem hnodup (hmem.2 hrow)]
    have hfirst : ∀ g : Group α, (if name g.first = name row then
        (⟨g.first, g.rows ++ [row]⟩ : Group α) else g).first = g.first := by
      intro g
      split <;> rfl
    refine ⟨?_, ?_, ?_⟩
    · rw [List.map_map, List.map_append, List.map_singleton, hnames, if_pos hrow, ← h.names]
      exact List.map_congr_left fun g _ => congrArg name (hfirst g)
    · rw [List.forall_mem_map]
      intro g hg
      rw [hfirst]
      exact hfind g hg
    · rw [List.forall_mem_map]
      intro g hg
      rw [hfirst, filter_concat, ← h.rows g hg]
      split <;> rfl
  · have hother : ∀ r ∈ rows, ¬name r = name row := fun r hr heq =>
      hrow (heq ▸ List.mem_map_of_mem hr)
    rw [addRow_of_notMem fun hin => hrow (hmem.1 hin)]
    refine ⟨?_, ?_, ?_⟩
    · rw [List.map_append, h.names, List.map_append, List.map_singleton, List.map_singleton, hnames,
        if_neg hrow]
    · rw [List.forall_mem_append, List.forall_mem_singleton]
      refine ⟨hfind, ?_⟩
      have hnone : rows.find? (name · = name row) = none := by
        rw [List.find?_eq_none]
        exact fun r hr => by simpa using hother r hr
      rw [List.find?_append, hnone]
      simp
    · rw [List.forall_mem_append, List.forall_mem_singleton]
      constructor
      · intro g hg
        have hname : ¬name g.first = name row := fun heq =>
          hrow (hmem.1 (heq ▸ List.mem_map_of_mem hg))
        rw [filter_concat, if_neg hname, h.rows g hg]
      · have hnone : rows.filter (name · = name row) = [] := by
          rw [List.filter_eq_nil_iff]
          exact fun r hr => by simpa using hother r hr
        rw [filter_concat, if_pos rfl, hnone]
        rfl

/-- All rows are in their groups. -/
theorem isGrouped_grouped (name : α → String) (rows : List α) :
    IsGrouped name rows (grouped name rows) := by
  induction rows using List.reverseRecOn with
  | nil => exact ⟨rfl, nofun, nofun⟩
  | append_singleton rows row ih =>
    unfold grouped at ih ⊢
    rw [List.foldl_append]
    exact ih.addRow row

end Rows

/-! ## What is made of the groups -/

/-- Things made of rows, one for each name: their names are those of the rows, each once and where
it appeared first, and each thing fits its first row and all its rows in their order. -/
structure MadeOf {α β : Type} (name : α → String) (rows : List α) (nameOf : β → String)
    (Fits : α → List α → β → Prop) (things : List β) : Prop where
  distinct : (things.map nameOf).Nodup
  names : things.map nameOf = (rows.map name).eraseDups
  each : ∀ b ∈ things, ∃ first, rows.find? (name · = nameOf b) = some first ∧
    Fits first (rows.filter (name · = nameOf b)) b

theorem madeOf_map {α β : Type} {name : α → String} {nameOf : β → String}
    {Fits : α → List α → β → Prop} {make : Group α → β}
    (hname : ∀ g, nameOf (make g) = name g.first) (hmake : ∀ g, Fits g.first g.rows (make g))
    (rows : List α) : MadeOf name rows nameOf Fits ((grouped name rows).map make) := by
  have hgrouped := isGrouped_grouped name rows
  have hnames : ((grouped name rows).map make).map nameOf = (rows.map name).eraseDups := by
    rw [List.map_map, ← hgrouped.names]
    exact List.map_congr_left fun g _ => hname g
  refine ⟨hnames ▸ nodup_eraseDups _, hnames, ?_⟩
  rw [List.forall_mem_map]
  intro g hg
  refine ⟨g.first, ?_, ?_⟩
  · rw [hname]
    exact hgrouped.first g hg
  · rw [hname, ← hgrouped.rows g hg]
    exact hmake g

/-- What is left of a name without a prefix: what is behind the prefix, or the name itself if it
does not begin with it. -/
def IsStripped (tablePrefix name rest : String) : Prop :=
  name.toList = tablePrefix.toList ++ rest.toList ∨
    ¬tablePrefix.toList <+: name.toList ∧ rest = name

theorem isStripped_stripPrefix (tablePrefix name : String) :
    IsStripped tablePrefix name (Sql.stripPrefix tablePrefix name) := by
  unfold Sql.stripPrefix
  cases h : tablePrefix.toList.isPrefixOf? name.toList with
  | some rest =>
    left
    rw [String.toList_ofList]
    exact (List.isPrefixOf?_eq_some_iff_append_eq.1 h).symm
  | none =>
    right
    refine ⟨?_, rfl⟩
    rintro ⟨rest, hrest⟩
    rw [List.isPrefixOf?_eq_some_iff_append_eq.2 hrest] at h
    cases h

theorem present?_eq_filter (s : Option String) : present? s = s.filter (· ≠ "") := by
  cases s with
  | none => rfl
  | some s =>
    by_cases h : s = ""
    · rw [h]
      rfl
    · simp [present?, Option.filter, h]

/-- An index with the columns of its rows, unique if its first row has it so. -/
structure IndexFits (first : IndexRow) (rows : List IndexRow) (i : Index) : Prop where
  columns : i.columns = rows.map (·.columnName)
  unique : i.unique = !first.nonUnique

/-- A constraint of the kind of its first row, with the columns of those of its rows that have
one. -/
structure ConstraintFits (first : ConstraintRow) (rows : List ConstraintRow) (c : Constraint) :
    Prop where
  kind : c.kind = first.kind
  columns : c.columns = rows.filterMap (·.column)

/-- A foreign key that points to the table of its first row, under the rules of that row as far as
they are not empty. Its columns and those they point to come from its rows in pairs. -/
structure ForeignKeyFits (tablePrefix : String) (first : ForeignKeyRow) (rows : List ForeignKeyRow)
    (k : ForeignKey) : Prop where
  columns : k.columns = rows.map (·.column)
  referenced : k.references.columns = rows.map (·.referencedColumn)
  length : k.columns.length = k.references.columns.length
  pairs : k.columns.zip k.references.columns = rows.map fun r => (r.column, r.referencedColumn)
  table : IsStripped tablePrefix first.referencedTable k.references.table
  onUpdate : k.onUpdate = first.updateRule.filter (· ≠ "")
  onDelete : k.onDelete = first.deleteRule.filter (· ≠ "")

theorem madeOf_indexes (rows : List IndexRow) :
    MadeOf (·.keyName) rows (·.name) IndexFits (indexes rows) := by
  unfold indexes
  apply madeOf_map
  · exact fun _ => rfl
  · exact fun _ => ⟨rfl, rfl⟩

theorem madeOf_constraints (rows : List ConstraintRow) :
    MadeOf (·.name) rows (·.name) ConstraintFits (constraints rows) := by
  unfold constraints
  apply madeOf_map
  · exact fun _ => rfl
  · exact fun _ => ⟨rfl, rfl⟩

theorem madeOf_foreignKeys (tablePrefix : String) (rows : List ForeignKeyRow) :
    MadeOf (·.name) rows (·.name) (ForeignKeyFits tablePrefix) (foreignKeys tablePrefix rows) := by
  unfold foreignKeys
  apply madeOf_map
  · exact fun _ => rfl
  · intro g
    exact {
      columns := rfl
      referenced := rfl
      length := by rw [List.length_map, List.length_map]
      pairs := List.zip_map'
      table := isStripped_stripPrefix tablePrefix g.first.referencedTable
      onUpdate := present?_eq_filter g.first.updateRule
      onDelete := present?_eq_filter g.first.deleteRule }

/-- The rows of indexes, constraints and foreign keys are grouped without loss. -/
theorem rows_grouped :
    (∀ rows, MadeOf (·.keyName) rows (·.name) IndexFits (indexes rows)) ∧
    (∀ rows, MadeOf (·.name) rows (·.name) ConstraintFits (constraints rows)) ∧
    ∀ tablePrefix rows, MadeOf (·.name) rows (·.name) (ForeignKeyFits tablePrefix)
      (foreignKeys tablePrefix rows) :=
  ⟨madeOf_indexes, madeOf_constraints, madeOf_foreignKeys⟩

/-- Two keys whose rows come in turns. -/
example : (foreignKeys "wp_"
    [⟨"a", "x", "wp_t", "1", some "CASCADE", some ""⟩, ⟨"b", "y", "u", "2", none, none⟩,
      ⟨"a", "z", "wp_v", "3", none, none⟩]) =
    [⟨"a", ["x", "z"], ⟨"t", ["1", "3"]⟩, some "CASCADE", none⟩,
      ⟨"b", ["y"], ⟨"u", ["2"]⟩, none, none⟩] := by
  decide +kernel

end SchemaInstaller.Introspection
