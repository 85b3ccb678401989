import Mathlib
import SchemaInstaller.Manifest.Validation
import SchemaInstaller.Proofs.Text.Quoted

/-!
# Different findings read differently

A message is made of fixed words with quoted names between them. The words that it begins with tell
the kinds of findings apart, and the names can be read off one after the other, so that findings
with the same message are the same (`Problem.message_eq_duplicateTable_iff`,
`Warning.message_injective`).
-/

namespace SchemaInstaller.Manifest

/-- Texts that begin differently differ. -/
theorem append_ne_of_openings {u v : Text} (huv : ¬u <+: v) (hvu : ¬v <+: u) (r s : Text) :
    u ++ r ≠ v ++ s := by
  intro h
  rcases List.prefix_or_prefix_of_prefix ⟨r, rfl⟩ ⟨s, h.symm⟩ with hprefix | hprefix
  · exact huv hprefix
  · exact hvu hprefix

theorem quoteName_injective {a b : String} (h : (quoteName a).toList = (quoteName b).toList) :
    a = b :=
  (quoteName_append_inj (r := []) (s := []) (by rw [h])).1

/-! ## Problems -/

namespace Problem

theorem toList_blankTableName (sourceName : String) :
    (blankTableName sourceName).message.toList =
      "table ".toList ++ ((quoteName sourceName).toList ++ " has an empty name".toList) := by
  show ("table " ++ quoteName sourceName ++ " has an empty name").toList = _
  rw [String.toList_append, String.toList_append, List.append_assoc]

theorem toList_duplicateTable (name : String) :
    (duplicateTable name).message.toList =
      "table ".toList ++ ((quoteName name).toList ++ " appears more than once".toList) := by
  show ("table " ++ quoteName name ++ " appears more than once").toList = _
  rw [String.toList_append, String.toList_append, List.append_assoc]

/-- The message about a name that comes twice is about nothing else. -/
theorem message_eq_duplicateTable_iff {p : Problem} {name : String} :
    p.message = (duplicateTable name).message ↔ p = duplicateTable name := by
  refine ⟨fun h => ?_, congrArg message⟩
  replace h := congrArg String.toList h
  rw [toList_duplicateTable] at h
  cases p with
  | className fault =>
    have hfault : (className fault).message.toList =
        "Manifest validation failed: ".toList ++ fault.message.toList := String.toList_append
    rw [hfault] at h
    exact absurd h (append_ne_of_openings (by simp) (by simp) _ _)
  | emptyPrefix =>
    rw [← List.append_nil emptyPrefix.message.toList] at h
    exact absurd h (append_ne_of_openings (u := "manifest default prefix is empty".toList)
      (by simp) (by simp) _ _)
  | blankTableName sourceName =>
    rw [toList_blankTableName] at h
    have hending := (quoteName_append_inj (List.append_cancel_left h)).2
    exact absurd hending (by decide)
  | duplicateTable other =>
    rw [toList_duplicateTable] at h
    rw [(quoteName_append_inj (List.append_cancel_left h)).1]

end Problem

/-! ## Warnings -/

namespace Warning

/-- What the message of a warning begins with. -/
inductive Opening
  | table
  | seedData
  | foreignKey
  | trigger
  deriving DecidableEq

/-- The opening in words. -/
def Opening.words : Opening → Text
  | table => "table ".toList
  | seedData => "seed data for table ".toList
  | foreignKey => "foreign key ".toList
  | trigger => "trigger ".toList

/-- No opening goes on as another one. -/
theorem Opening.eq_of_prefix {a b : Opening} (h : a.words <+: b.words) : a = b := by
  cases a <;> cases b <;> revert h <;> decide

/-- The opening of a message. -/
def opening : Warning → Opening
  | noColumns _ => .table
  | noSeedRows _ _ => .table
  | unknownSeedColumn _ _ => .seedData
  | unknownReference _ _ _ => .foreignKey
  | unknownTriggerTable _ _ => .trigger
  | skippedTriggerTable _ _ => .trigger

/-- The name behind the opening. -/
def subject : Warning → String
  | noColumns table => table
  | noSeedRows table _ => table
  | unknownSeedColumn table _ => table
  | unknownReference key _ _ => key
  | unknownTriggerTable trigger _ => trigger
  | skippedTriggerTable trigger _ => trigger

/-- The message behind this name. -/
def ending : Warning → Text
  | noColumns _ => " has no columns".toList
  | noSeedRows _ limit =>
    " has rowLimit ".toList ++ ((toString limit).toList ++ " but no seed rows".toList)
  | unknownSeedColumn _ column =>
    " references unknown column ".toList ++ (quoteName column).toList
  | unknownReference _ table target =>
    " on table ".toList ++ ((quoteName table).toList ++ (" references table ".toList ++
      ((quoteName target).toList ++ " which is not in the manifest".toList)))
  | unknownTriggerTable _ table =>
    " is attached to table ".toList ++
      ((quoteName table).toList ++ " which is not in the manifest".toList)
  | skippedTriggerTable _ table =>
    " is attached to skipped table ".toList ++ (quoteName table).toList

theorem toList_message (w : Warning) :
    w.message.toList = w.opening.words ++ ((quoteName w.subject).toList ++ w.ending) := by
  cases w with
  | noColumns table =>
    show ("table " ++ quoteName table ++ " has no columns").toList = _
    rw [String.toList_append, String.toList_append, List.append_assoc]
    rfl
  | noSeedRows table limit =>
    show ("table " ++ quoteName table ++ " has rowLimit " ++ toString limit ++
      " but no seed rows").toList = _
    rw [String.toList_append, String.toList_append, String.toList_append, String.toList_append]
    simp only [List.append_assoc]
    rfl
  | unknownSeedColumn table column =>
    show ("seed data for table " ++ quoteName table ++ " references unknown column " ++
      quoteName column).toList = _
    rw [String.toList_append, String.toList_append, String.toList_append]
    simp only [List.append_assoc]
    rfl
  | unknownReference key table target =>
    show ("foreign key " ++ quoteName key ++ " on table " ++ quoteName table ++
      " references table " ++ quoteName target ++ " which is not in the manifest").toList = _
    rw [String.toList_append, String.toList_append, String.toList_append, String.toList_append,
      String.toList_append, String.toList_append]
    simp only [List.append_assoc]
    rfl
  | unknownTriggerTable trigger table =>
    show ("trigger " ++ quoteName trigger ++ " is attached to table " ++ quoteName table ++
      " which is not in the manifest").toList = _
    rw [String.toList_append, String.toList_append, String.toList_append, String.toList_append]
    simp only [List.append_assoc]
    rfl
  | skippedTriggerTable trigger table =>
    show ("trigger " ++ quoteName trigger ++ " is attached to skipped table " ++
      quoteName table).toList = _
    rw [String.toList_append, String.toList_append, String.toList_append]
    simp only [List.append_assoc]
    rfl

/-- What is the same about warnings with the same message. -/
theorem parts_of_message_eq {v w : Warning} (h : v.message = w.message) :
    v.opening = w.opening ∧ v.subject = w.subject ∧ v.ending = w.ending := by
  have htext : v.opening.words ++ ((quoteName v.subject).toList ++ v.ending) =
      w.opening.words ++ ((quoteName w.subject).toList ++ w.ending) := by
    rw [← toList_message, ← toList_message, h]
  have hopening : v.opening = w.opening := by
    rcases List.prefix_or_prefix_of_prefix ⟨_, rfl⟩ ⟨_, htext.symm⟩ with hprefix | hprefix
    · exact Opening.eq_of_prefix hprefix
    · exact (Opening.eq_of_prefix hprefix).symm
  rw [hopening] at htext
  exact ⟨hopening, quoteName_append_inj (List.append_cancel_left htext)⟩

theorem message_injective : Function.Injective message := by
  intro v w h
  obtain ⟨hopening, hsubject, hending⟩ := parts_of_message_eq h
  have hcolumns : ∀ r : Text, " has no columns".toList ≠ " has rowLimit ".toList ++ r := by
    intro r
    have hne := append_ne_of_openings (u := " has no columns".toList)
      (v := " has rowLimit ".toList) (by simp) (by simp) [] r
    rwa [List.append_nil] at hne
  have htables : ∀ r s : Text,
      " is attached to table ".toList ++ r ≠ " is attached to skipped table ".toList ++ s :=
    append_ne_of_openings (by simp) (by simp)
  -- only kinds of warnings that begin with the same words are left
  cases v <;> cases w <;> cases hopening
  case noColumns.noColumns t u =>
    obtain rfl : t = u := hsubject
    rfl
  case noColumns.noSeedRows => exact absurd hending (hcolumns _)
  case noSeedRows.noColumns => exact absurd hending.symm (hcolumns _)
  case noSeedRows.noSeedRows t m u n =>
    obtain rfl : t = u := hsubject
    have hlimit := List.append_cancel_right (List.append_cancel_left hending)
    obtain rfl : m = n := Int.repr_inj.1 (String.toList_inj.1 hlimit)
    rfl
  case unknownSeedColumn.unknownSeedColumn t c u d =>
    obtain rfl : t = u := hsubject
    obtain rfl : c = d := quoteName_injective (List.append_cancel_left hending)
    rfl
  case unknownReference.unknownReference k t r l u s =>
    obtain rfl : k = l := hsubject
    obtain ⟨rfl, htarget⟩ := quoteName_append_inj (List.append_cancel_left hending)
    obtain ⟨rfl, -⟩ := quoteName_append_inj (List.append_cancel_left htarget)
    rfl
  case unknownTriggerTable.unknownTriggerTable g t e u =>
    obtain rfl : g = e := hsubject
    obtain ⟨rfl, -⟩ := quoteName_append_inj (List.append_cancel_left hending)
    rfl
  case unknownTriggerTable.skippedTriggerTable => exact absurd hending (htables _ _)
  case skippedTriggerTable.unknownTriggerTable => exact absurd hending.symm (htables _ _)
  case skippedTriggerTable.skippedTriggerTable g t e u =>
    obtain rfl : g = e := hsubject
    obtain rfl : t = u := quoteName_injective (List.append_cancel_left hending)
    rfl

end Warning

end SchemaInstaller.Manifest
