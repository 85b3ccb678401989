import Mathlib.Data.List.Nodup
import SchemaInstaller.Proofs.Manifest.Messages

/-!
# What the check reports as a warning

Of warnings that come one right behind the other and are equal only the first is reported. So a
warning is reported once exactly if nothing else stands between its occurrences (`Together`,
`nodup_eraseReps_iff`). Whether that is so can be asked of each table on its own, and within a table
of its seed columns and of its foreign keys (`warnings_once_iff`).
-/

namespace SchemaInstaller

/-! ## Values that stand together -/

section Together

variable {α β γ : Type} {l r : List α}

/-- Nothing stands between two occurrences of a value but that value. -/
def Together (l : List α) : Prop := ∀ x y, [x, y, x].Sublist l → y = x

theorem Together.sublist (h : Together r) (hsub : l.Sublist r) : Together l :=
  fun x y hxy => h x y (hxy.trans hsub)

theorem together_of_nodup (h : l.Nodup) : Together l := by
  intro x y hsub
  have htwice : [x, x].Sublist [x, y, x] := ((List.Sublist.refl [x]).cons y).cons_cons x
  exact absurd (htwice.trans hsub) (List.nodup_iff_sublist.1 h x)

/-- A value in front of a different one has to be the last of its kind. -/
theorem together_cons_cons_iff {a b : α} (hne : a ≠ b) :
    Together (a :: b :: l) ↔ a ∉ b :: l ∧ Together (b :: l) := by
  constructor
  · intro h
    refine ⟨fun hmem => ?_, h.sublist (List.sublist_cons_self a _)⟩
    have hl : a ∈ l := (List.mem_cons.1 hmem).resolve_left hne
    exact hne (h a b (((List.singleton_sublist.2 hl).cons_cons b).cons_cons a)).symm
  · rintro ⟨hmem, h⟩ x y hsub
    cases hsub with
    | cons _ hsub => exact h x y hsub
    | cons_cons _ hsub => exact absurd (hsub.subset (by simp)) hmem

/-- A value that comes again at once is as good as one occurrence. -/
theorem together_cons_self_iff {a : α} : Together (a :: a :: l) ↔ Together (a :: l) := by
  refine ⟨fun h => h.sublist (List.sublist_cons_self a _), fun h x y hsub => ?_⟩
  cases hsub with
  | cons _ hsub => exact h x y hsub
  | cons_cons _ hsub =>
    cases hsub with
    | cons _ hsub => exact h a y (hsub.cons_cons a)
    | cons_cons _ _ => rfl

theorem together_append_iff (hdisjoint : l.Disjoint r) :
    Together (l ++ r) ↔ Together l ∧ Together r := by
  constructor
  · intro h
    exact ⟨h.sublist (List.sublist_append_left l r), h.sublist (List.sublist_append_right l r)⟩
  · rintro ⟨hl, hr⟩ x y hsub
    obtain ⟨u, v, huv, hu, hv⟩ := List.sublist_append_iff.1 hsub
    -- both occurrences are on the same side, or the value would be on both
    cases u with
    | nil =>
      rw [List.nil_append] at huv
      exact hr x y (huv ▸ hv)
    | cons c u =>
      obtain ⟨rfl, huv⟩ := List.cons_eq_cons.1 huv
      cases hend : v with
      | nil =>
        rw [hend, List.append_nil] at huv
        exact hl x y (huv ▸ hu)
      | cons d w =>
        have hlast : x ∈ v := by
          have h := congrArg List.getLast? huv
          rw [List.getLast?_append_of_ne_nil _ (by rw [hend]; exact List.cons_ne_nil d w)] at h
          exact List.mem_of_getLast? h.symm
        exact absurd (hv.subset hlast) (hdisjoint (hu.subset List.mem_cons_self))

theorem together_map_iff {f : α → β} (hf : Function.Injective f) :
    Together (l.map f) ↔ Together l := by
  constructor
  · intro h x y hsub
    exact hf (h (f x) (f y) (hsub.map f))
  · intro h x y hsub
    obtain ⟨u, hu, huxy⟩ := List.sublist_map_iff.1 hsub
    obtain ⟨a, v, rfl, rfl, hv⟩ := List.map_eq_cons_iff.1 huxy.symm
    obtain ⟨b, w, rfl, rfl, hw⟩ := List.map_eq_cons_iff.1 hv
    obtain ⟨c, s, rfl, hc, hs⟩ := List.map_eq_cons_iff.1 hw
    obtain rfl := List.map_eq_nil_iff.1 hs
    obtain rfl := hf hc
    rw [h c b hu]

/-- Pieces that can be told apart by the values in them each have their values together. -/
theorem together_flatMap_iff {f : α → List β} {owner : β → γ} {name : α → γ}
    (howner : ∀ a ∈ l, ∀ b ∈ f a, owner b = name a) (hnames : l.Pairwise (name · ≠ name ·)) :
    Together (l.flatMap f) ↔ ∀ a ∈ l, Together (f a) := by
  induction l with
  | nil => exact iff_of_true nofun nofun
  | cons a l ih =>
    obtain ⟨hfirst, hrest⟩ := List.pairwise_cons.1 hnames
    obtain ⟨ha, hl⟩ := List.forall_mem_cons.1 howner
    have hdisjoint : (f a).Disjoint (l.flatMap f) := by
      intro b hb hmem
      obtain ⟨c, hc, hbc⟩ := List.mem_flatMap.1 hmem
      exact hfirst c hc ((ha b hb).symm.trans (hl c hc b hbc))
    rw [List.flatMap_cons, together_append_iff hdisjoint, ih hl hrest, List.forall_mem_cons]

/-! ### Leaving out repetitions -/

theorem eraseRepsBy_loop (same : α → α → Bool) (a : α) (l seen : List α) :
    List.eraseRepsBy.loop same a l seen =
      seen.reverse ++ List.eraseRepsBy.loop same a l [] := by
  induction l generalizing a seen with
  | nil => rw [List.eraseRepsBy.loop, List.eraseRepsBy.loop, List.reverse_cons]; rfl
  | cons b l ih =>
    unfold List.eraseRepsBy.loop
    cases same a b with
    | true => exact ih a seen
    | false =>
      show List.eraseRepsBy.loop same b l (a :: seen) =
        seen.reverse ++ List.eraseRepsBy.loop same b l [a]
      rw [ih b (a :: seen), ih b [a], List.reverse_cons, List.append_assoc]
      rfl

variable [DecidableEq α]

theorem eraseReps_cons_self (a : α) (l : List α) : (a :: a :: l).eraseReps = (a :: l).eraseReps := by
  show List.eraseRepsBy.loop (· == ·) a (a :: l) [] = List.eraseRepsBy.loop (· == ·) a l []
  rw [List.eraseRepsBy.loop, beq_self_eq_true]

theorem eraseReps_cons_cons {a b : α} (hne : a ≠ b) (l : List α) :
    (a :: b :: l).eraseReps = a :: (b :: l).eraseReps := by
  show List.eraseRepsBy.loop (· == ·) a (b :: l) [] = a :: List.eraseRepsBy.loop (· == ·) b l []
  rw [List.eraseRepsBy.loop, beq_eq_false_iff_ne.2 hne]
  exact eraseRepsBy_loop _ b l [a]

theorem mem_eraseReps {a : α} : a ∈ l.eraseReps ↔ a ∈ l := by
  induction l with
  | nil => rfl
  | cons b l ih =>
    cases l with
    | nil => rfl
    | cons c l =>
      by_cases hne : b = c
      · obtain rfl := hne
        rw [eraseReps_cons_self, ih]
        simp
      · rw [eraseReps_cons_cons hne, List.mem_cons, List.mem_cons, ih]

/-- Without repetitions no value comes twice iff equal values stood together. -/
theorem nodup_eraseReps_iff : l.eraseReps.Nodup ↔ Together l := by
  induction l with
  | nil => exact iff_of_true List.nodup_nil (together_of_nodup List.nodup_nil)
  | cons a l ih =>
    cases l with
    | nil =>
      exact iff_of_true (List.nodup_singleton a) (together_of_nodup (List.nodup_singleton a))
    | cons b l =>
      by_cases hne : a = b
      · obtain rfl := hne
        rw [eraseReps_cons_self, together_cons_self_iff, ih]
      · rw [eraseReps_cons_cons hne, List.nodup_cons, mem_eraseReps, together_cons_cons_iff hne, ih]

end Together

namespace Manifest

/-! ## Whom a warning is about -/

/-- The table or the trigger a warning is about. -/
def Warning.owner : Warning → String ⊕ String
  | noColumns table => .inl table
  | noSeedRows table _ => .inl table
  | unknownSeedColumn table _ => .inl table
  | unknownReference _ table _ => .inl table
  | unknownTriggerTable trigger _ => .inr trigger
  | skippedTriggerTable trigger _ => .inr trigger

/-- The columns that the rows of a table have and the table has not, row after row. -/
def unknownColumns (t : Table) : List String :=
  t.seedData.flatMap fun row => row.columns.filter fun c => !t.columns.any (·.name == c)

/-- The foreign keys of a table that lead to no table, each with the name that it asks for. -/
def danglingKeys (m : Manifest) (t : Table) : List (String × String) :=
  (t.foreignKeys.filter fun k => (m.table? k.references.table).isNone).map fun k =>
    (k.name, k.references.table)

/-- The warning about a foreign key that leads to no table. -/
def keyWarning (t : Table) (key : String × String) : Warning := .unknownReference key.1 t.name key.2

theorem keyWarning_injective (t : Table) : Function.Injective (keyWarning t) := by
  rintro ⟨k, r⟩ ⟨l, s⟩ h
  cases h
  rfl

theorem seedWarnings_eq (t : Table) :
    seedWarnings t = (unknownColumns t).map (.unknownSeedColumn t.name) :=
  (List.map_flatMap ..).symm

/-- The warnings about a table that has no columns, and no rows where it should have some. -/
def plainWarnings (t : Table) : List Warning :=
  (if !t.skip && t.columns.isEmpty then [.noColumns t.name] else [])
    ++ if t.rowLimit.toInt > 0 && t.seedData.isEmpty then
        [.noSeedRows t.name t.rowLimit.toInt] else []

theorem tableWarnings_eq (m : Manifest) (t : Table) :
    tableWarnings m t = plainWarnings t ++
      ((unknownColumns t).map (.unknownSeedColumn t.name) ++
        (danglingKeys m t).map (keyWarning t)) := by
  unfold tableWarnings danglingKeys
  rw [seedWarnings_eq, List.map_map, List.append_assoc _ _ (List.map _ _)]
  rfl

theorem owner_of_mem_plainWarnings {t : Table} {w : Warning} (h : w ∈ plainWarnings t) :
    w.owner = .inl t.name := by
  unfold plainWarnings at h
  rcases List.mem_append.1 h with h | h <;> split at h
  · rw [List.mem_singleton.1 h]
    rfl
  · cases h
  · rw [List.mem_singleton.1 h]
    rfl
  · cases h

theorem owner_of_mem_tableWarnings {m : Manifest} {t : Table} {w : Warning}
    (h : w ∈ tableWarnings m t) : w.owner = .inl t.name := by
  rw [tableWarnings_eq] at h
  rcases List.mem_append.1 h with h | h
  · exact owner_of_mem_plainWarnings h
  · rcases List.mem_append.1 h with h | h
    · obtain ⟨c, -, rfl⟩ := List.mem_map.1 h
      rfl
    · obtain ⟨k, -, rfl⟩ := List.mem_map.1 h
      rfl

theorem owner_of_mem_triggerWarnings {m : Manifest} {g : Trigger} {w : Warning}
    (h : w ∈ triggerWarnings m g) : w.owner = .inr g.name := by
  unfold triggerWarnings at h
  split at h
  · rw [List.mem_singleton.1 h]
    rfl
  · split at h
    · rw [List.mem_singleton.1 h]
      rfl
    · cases h

/-! ## Warnings that stand together -/

theorem nodup_plainWarnings (t : Table) : (plainWarnings t).Nodup := by
  unfold plainWarnings
  split <;> split <;> simp

theorem nodup_triggerWarnings (m : Manifest) (g : Trigger) : (triggerWarnings m g).Nodup := by
  unfold triggerWarnings
  split
  · exact List.nodup_singleton _
  · split
    · exact List.nodup_singleton _
    · exact List.nodup_nil

/-- Of the warnings about a table only those about its seed columns and its foreign keys can
alternate. -/
theorem together_tableWarnings_iff (m : Manifest) (t : Table) :
    Together (tableWarnings m t) ↔ Together (unknownColumns t) ∧ Together (danglingKeys m t) := by
  have hkinds : ((unknownColumns t).map (Warning.unknownSeedColumn t.name)).Disjoint
      ((danglingKeys m t).map (keyWarning t)) := by
    intro w hcolumn hkey
    obtain ⟨c, -, rfl⟩ := List.mem_map.1 hcolumn
    obtain ⟨k, -, h⟩ := List.mem_map.1 hkey
    cases h
  have hplain : (plainWarnings t).Disjoint ((unknownColumns t).map (.unknownSeedColumn t.name) ++
      (danglingKeys m t).map (keyWarning t)) := by
    intro w hw h
    have hw : w = .noColumns t.name ∨ w = .noSeedRows t.name t.rowLimit.toInt := by
      unfold plainWarnings at hw
      grind
    rcases List.mem_append.1 h with h | h
    · obtain ⟨c, -, rfl⟩ := List.mem_map.1 h
      rcases hw with hw | hw <;> cases hw
    · obtain ⟨k, -, rfl⟩ := List.mem_map.1 h
      rcases hw with hw | hw <;> cases hw
  have hcolumn : Function.Injective (Warning.unknownSeedColumn t.name) := fun _ _ h => by
    cases h
    rfl
  rw [tableWarnings_eq, together_append_iff hplain, together_append_iff hkinds,
    together_map_iff hcolumn, together_map_iff (keyWarning_injective t)]
  exact and_iff_right (together_of_nodup (nodup_plainWarnings t))

/-! ## The report -/

/-- Where no two tables and no two triggers share a name, no message comes twice exactly if in each
table the unknown columns of its rows do not alternate, and neither do the foreign keys that lead to
no table. -/
theorem warnings_once_iff (m : Manifest) (className? : Option String)
    (htables : (m.tables.map (·.name)).Nodup) (htriggers : (m.triggers.map (·.name)).Nodup) :
    (m.validate className?).warningMessages.Nodup ↔
      ∀ t ∈ m.tables, isNamed t = true →
        Together (unknownColumns t) ∧ Together (danglingKeys m t) := by
  have hnamed : (m.tables.filter isNamed).Pairwise fun t u =>
      (.inl t.name : String ⊕ String) ≠ .inl u.name :=
    ((List.pairwise_map.1 htables).filter _).imp fun hne h => hne (Sum.inl.inj h)
  have hfired : m.triggers.Pairwise fun g e => (.inr g.name : String ⊕ String) ≠ .inr e.name :=
    (List.pairwise_map.1 htriggers).imp fun hne h => hne (Sum.inr.inj h)
  have hdisjoint : ((m.tables.filter isNamed).flatMap (tableWarnings m)).Disjoint
      (m.triggers.flatMap (triggerWarnings m)) := by
    intro w htable htrigger
    obtain ⟨t, -, ht⟩ := List.mem_flatMap.1 htable
    obtain ⟨g, -, hg⟩ := List.mem_flatMap.1 htrigger
    have howner := (owner_of_mem_tableWarnings ht).symm.trans (owner_of_mem_triggerWarnings hg)
    cases howner
  unfold Report.warningMessages validate
  rw [List.nodup_map_iff Warning.message_injective, nodup_eraseReps_iff,
    together_append_iff hdisjoint,
    together_flatMap_iff (fun _ _ _ => owner_of_mem_tableWarnings) hnamed,
    together_flatMap_iff (fun _ _ _ => owner_of_mem_triggerWarnings) hfired,
    and_iff_left fun g _ => together_of_nodup (nodup_triggerWarnings m g)]
  simp only [together_tableWarnings_iff, List.mem_filter, and_imp]

/-- The table of orders with an identifier, and rows. -/
def ordersWith (rows : List SeedRow) : Table :=
  { Table.empty "orders" "wp_orders" "shop" with
    columns := [⟨"id", "int", false, true, true, none, none⟩], rowLimit := 2, seedData := rows }

/-- A shop with the table of orders and two triggers on a table that is missing. -/
def shopWith (rows : List SeedRow) : Manifest :=
  { empty "shop" "wp_" .epoch with
    tables := [ordersWith rows]
    triggers := [⟨"a", "wp_a", "shop.wp_a", "BEFORE INSERT", "bills", "SET @a = 1", none⟩,
      ⟨"b", "wp_b", "shop.wp_b", "BEFORE INSERT", "bills", "SET @b = 1", none⟩] }

/-- Two rows with one unknown column. -/
def oneOldColumn : List SeedRow :=
  [⟨[("id", .null), ("old", .null)], by decide⟩, ⟨[("id", .null), ("old", .null)], by decide⟩]

/-- Two rows with the same two unknown columns. -/
def twoOldColumns : List SeedRow :=
  [⟨[("old", .null), ("older", .null)], by decide⟩, ⟨[("old", .null), ("older", .null)], by decide⟩]

theorem oneOldColumn_once :
    ((shopWith oneOldColumn).tables.map (·.name)).Nodup ∧
      ((shopWith oneOldColumn).triggers.map (·.name)).Nodup ∧
      ((shopWith oneOldColumn).validate none).warningMessages.Nodup := by
  have htables : ((shopWith oneOldColumn).tables.map (·.name)).Nodup := by decide
  have htriggers : ((shopWith oneOldColumn).triggers.map (·.name)).Nodup := by decide
  refine ⟨htables, htriggers, (warnings_once_iff _ none htables htriggers).2 fun t ht _ => ?_⟩
  obtain rfl := List.mem_singleton.1 ht
  have hcolumns : unknownColumns (ordersWith oneOldColumn) = ["old", "old"] := by decide
  have hkeys : danglingKeys (shopWith oneOldColumn) (ordersWith oneOldColumn) = [] := rfl
  rw [hcolumns, hkeys, together_cons_self_iff]
  exact ⟨together_of_nodup (List.nodup_singleton "old"), together_of_nodup List.nodup_nil⟩

/-- The names differ, and yet two messages come twice. -/
theorem twoOldColumns_twice :
    ((shopWith twoOldColumns).tables.map (·.name)).Nodup ∧
      ((shopWith twoOldColumns).triggers.map (·.name)).Nodup ∧
      ¬((shopWith twoOldColumns).validate none).warningMessages.Nodup := by
  refine ⟨by decide, by decide, ?_⟩
  unfold Report.warningMessages
  rw [List.nodup_map_iff Warning.message_injective]
  decide

end Manifest

end SchemaInstaller
