import Mathlib.Data.List.Nodup
import Mathlib.Data.List.Range
import Mathlib.Tactic.Common
import SchemaInstaller.Installer.TriggerNames
import SchemaInstaller.Proofs.Text.Letters

/-!
# Triggers get names of their own

The candidates for a name differ in lower case, whatever the base is (`lower_candidate_injective`):
the base comes out equally long in each of them, and what follows it is in lower case already. So one
more candidate than there are taken names holds a free one, and the search ends with the first of
them (`isFirstFree_firstFree`). `triggerNames_free` says what this means for the triggers of a
manifest.
-/

namespace SchemaInstaller

namespace TriggerNames

/-! ## Candidates -/

/-- What follows the base in a candidate. -/
def suffix : Nat → Text
  | 0 => []
  | 1 => "_trg".toList
  | n => "_trg".toList ++ Nat.toDigits 10 n

theorem candidate_eq_append (base : Text) (n : Nat) : candidate base n = base ++ suffix n := by
  match n with
  | 0 => exact (List.append_nil base).symm
  | 1 => rfl
  | n + 2 => exact List.append_assoc base _ _

theorem isSmall_suffix (n : Nat) : Text.IsSmall (suffix n) := by
  have hword : Text.IsSmall "_trg".toList := by
    have hall : "_trg".toList.all (fun c => decide (c.toNat < 128) && !c.isUpper) = true := by
      decide
    intro c hc
    simpa using List.all_eq_true.1 hall c hc
  have hdigits : Text.IsSmall (Nat.toDigits 10 n) := by
    intro c hc
    have hdigit := Nat.isDigit_of_mem_toDigits (by decide) (by decide) hc
    simp only [Char.isDigit, Bool.and_eq_true, decide_eq_true_eq] at hdigit
    have hle : c.toNat ≤ 57 := hdigit.2
    rw [Text.isUpper_iff]
    omega
  unfold suffix
  split
  · nofun
  · exact hword
  · intro c hc
    rcases List.mem_append.1 hc with hc | hc
    · exact hword c hc
    · exact hdigits c hc

theorem suffix_injective : Function.Injective suffix := by
  have hpos : ∀ n, 0 < (Nat.toDigits 10 n).length := fun n =>
    List.length_pos_iff.2 Nat.toDigits_ne_nil
  -- the three shapes have lengths zero, four and more
  have hlen : ∀ n, (suffix (n + 2)).length = 4 + (Nat.toDigits 10 (n + 2)).length := fun n =>
    List.length_append
  intro i j h
  match i, j with
  | 0, 0 => rfl
  | 0, 1 => cases h
  | 1, 0 => cases h
  | 1, 1 => rfl
  | 0, n + 2 => cases h
  | n + 2, 0 => cases h
  | 1, n + 2 =>
    have := congrArg List.length h
    rw [hlen, show (suffix 1).length = 4 from rfl] at this
    have := hpos (n + 2)
    omega
  | n + 2, 1 =>
    have := congrArg List.length h
    rw [hlen, show (suffix 1).length = 4 from rfl] at this
    have := hpos (n + 2)
    omega
  | k + 2, n + 2 =>
    have hdigits : Nat.toDigits 10 (k + 2) = Nat.toDigits 10 (n + 2) := List.append_cancel_left h
    rw [← Nat.ofDigitChars_ten_toDigits (n := k + 2), hdigits, Nat.ofDigitChars_ten_toDigits]

/-- No two candidates have the same lower case. -/
theorem lower_candidate_injective (base : Text) :
    Function.Injective fun n => Text.lower (candidate base n) := by
  intro i j h
  simp only [candidate_eq_append] at h
  exact suffix_injective (Text.append_inj_of_lower (isSmall_suffix i) (isSmall_suffix j) h)

/-! ## The first free candidate -/

/-- The first candidate for a name whose lower case is not taken. -/
def IsFirstFree (taken : List Text) (base name : Text) : Prop :=
  ∃ k, name = candidate base k ∧ Text.lower name ∉ taken ∧
    ∀ j < k, Text.lower (candidate base j) ∈ taken

theorem IsFirstFree.congr {taken taken' : List Text} {base name : Text}
    (h : IsFirstFree taken base name) (hmem : ∀ x, x ∈ taken ↔ x ∈ taken') :
    IsFirstFree taken' base name := by
  obtain ⟨k, rfl, hfree, hbefore⟩ := h
  exact ⟨k, rfl, fun hk => hfree ((hmem _).2 hk), fun j hj => (hmem _).1 (hbefore j hj)⟩

/-- There are more candidates than names that can be taken. -/
theorem exists_free (taken : List Text) (base : Text) :
    ∃ k < taken.length + 1, Text.lower (candidate base k) ∉ taken := by
  by_contra hno
  push Not at hno
  let lowers := (List.range (taken.length + 1)).map fun n => Text.lower (candidate base n)
  have hnodup : lowers.Nodup := List.nodup_range.map (lower_candidate_injective base)
  have hsub : lowers ⊆ taken := by
    intro x hx
    obtain ⟨n, hn, rfl⟩ := List.mem_map.1 hx
    exact hno n (List.mem_range.1 hn)
  have hle := hnodup.length_le_of_subset hsub
  rw [List.length_map, List.length_range] at hle
  omega

/-- The search goes on to the first free candidate if it is near enough. -/
theorem isFirstFree_firstFreeFrom (taken : List Text) (base : Text) {fuel n : Nat}
    (h : ∃ k < n + fuel, n ≤ k ∧ Text.lower (candidate base k) ∉ taken)
    (hbefore : ∀ j < n, Text.lower (candidate base j) ∈ taken) :
    IsFirstFree taken base (firstFreeFrom taken base fuel n) := by
  induction fuel generalizing n with
  | zero =>
    obtain ⟨k, hk, hnk, -⟩ := h
    omega
  | succ fuel ih =>
    unfold firstFreeFrom
    by_cases hn : Text.lower (candidate base n) ∈ taken
    · rw [if_pos (List.contains_iff_mem.2 hn)]
      obtain ⟨k, hk, hnk, hfree⟩ := h
      have hne : k ≠ n := by
        rintro rfl
        exact hfree hn
      refine ih ⟨k, by omega, by omega, hfree⟩ fun j hj => ?_
      rcases Nat.lt_succ_iff_lt_or_eq.1 hj with hj | rfl
      · exact hbefore j hj
      · exact hn
    · rw [if_neg fun hc => hn (List.contains_iff_mem.1 hc)]
      exact ⟨n, rfl, hn, hbefore⟩

/-- The search always ends with a free candidate. -/
theorem isFirstFree_firstFree (taken : List Text) (base : Text) :
    IsFirstFree taken base (firstFree taken base) := by
  obtain ⟨k, hk, hfree⟩ := exists_free taken base
  exact isFirstFree_firstFreeFrom taken base ⟨k, by omega, Nat.zero_le k, hfree⟩ fun j hj => by omega

/-! ## One trigger after another -/

/-- A name in lower case. -/
def key (name : String) : Text := Text.lower name.toList

theorem length_assign (taken : List Text) (ts : List Trigger) :
    (assign taken ts).length = ts.length := by
  induction ts generalizing taken with
  | nil => rfl
  | cons t r ih => rw [assign, List.length_cons, ih, List.length_cons]

/-- What is taken stays taken: no name that is given later has the same lower case. -/
theorem key_notMem_of_mem_assign {taken : List Text} {ts : List Trigger} {name : String}
    (h : name ∈ assign taken ts) : key name ∉ taken := by
  induction ts generalizing taken with
  | nil => cases h
  | cons t r ih =>
    rw [assign] at h
    rcases List.mem_cons.1 h with rfl | h
    · obtain ⟨-, -, hfree, -⟩ := isFirstFree_firstFree taken (base t)
      unfold key
      rw [String.toList_ofList]
      exact hfree
    · exact fun hmem => ih h (List.mem_cons_of_mem _ hmem)

theorem nodup_keys_assign (taken : List Text) (ts : List Trigger) :
    ((assign taken ts).map key).Nodup := by
  induction ts generalizing taken with
  | nil => exact List.nodup_nil
  | cons t r ih =>
    rw [assign, List.map_cons, List.nodup_cons]
    refine ⟨fun hmem => ?_, ih _⟩
    obtain ⟨name, hname, hkey⟩ := List.mem_map.1 hmem
    refine key_notMem_of_mem_assign hname ?_
    rw [hkey, key, String.toList_ofList]
    exact List.mem_cons_self

/-- Each trigger gets the first candidate that is free of what was taken at first and of the names
given before it. -/
theorem isFirstFree_assign {taken : List Text} {ts : List Trigger} {i : Nat} {t : Trigger}
    (h : ts[i]? = some t) : ∃ name, (assign taken ts)[i]? = some name ∧
      IsFirstFree (taken ++ ((assign taken ts).take i).map key) (base t) name.toList := by
  induction ts generalizing taken i with
  | nil => cases h
  | cons u r ih =>
    rw [assign]
    cases i with
    | zero =>
      obtain rfl : u = t := by simpa using h
      refine ⟨_, rfl, ?_⟩
      rw [List.take_zero, List.map_nil, List.append_nil, String.toList_ofList]
      exact isFirstFree_firstFree taken (base u)
    | succ i =>
      obtain ⟨name, hname, hfree⟩ := @ih (Text.lower (firstFree taken (base u)) :: taken) i
        (by simpa using h)
      refine ⟨name, by simpa using hname, hfree.congr fun x => ?_⟩
      rw [List.take_succ_cons, List.map_cons, key, String.toList_ofList]
      simp only [List.mem_append, List.mem_cons]
      tauto

end TriggerNames

open TriggerNames

theorem lowerCase_eq_iff (a b : String) : lowerCase a = lowerCase b ↔ key a = key b :=
  ⟨fun h => String.ofList_injective h, fun h => congrArg String.ofList h⟩

theorem Manifest.mem_reserved_iff (m : Manifest) (x : Text) : x ∈ reserved m ↔
    (∃ t ∈ m.tables, x = key t.name) ∨ (∃ v ∈ m.views, x = key v.name) ∨
      ∃ p ∈ m.storedProcedures, x = key p.name := by
  unfold reserved
  simp only [List.map_append, List.map_map, List.mem_append, List.mem_map, Function.comp_apply,
    or_assoc, key, eq_comm]

/-- Every trigger of a manifest is installed under one name. The names differ in lower case from each
other and from every table, view and procedure, and each is the first candidate that is free when
its turn comes. -/
theorem Manifest.triggerNames_free (m : Manifest) :
    m.triggerNames.length = m.triggers.length ∧
      (m.triggerNames.map lowerCase).Nodup ∧
      (∀ name ∈ m.triggerNames, (∀ t ∈ m.tables, lowerCase name ≠ lowerCase t.name) ∧
        (∀ v ∈ m.views, lowerCase name ≠ lowerCase v.name) ∧
        ∀ p ∈ m.storedProcedures, lowerCase name ≠ lowerCase p.name) ∧
      ∀ i t, m.triggers[i]? = some t → ∃ name, m.triggerNames[i]? = some name ∧
        IsFirstFree (reserved m ++ (m.triggerNames.take i).map key) (base t) name.toList := by
  refine ⟨length_assign _ _, ?_, fun name hname => ?_, fun i t => isFirstFree_assign⟩
  · have hkeys := nodup_keys_assign (reserved m) m.triggers
    have hlower : m.triggerNames.map lowerCase = (m.triggerNames.map key).map String.ofList := by
      rw [List.map_map]
      rfl
    rw [hlower]
    exact hkeys.map fun _ _ h => String.ofList_injective h
  · have hfree : key name ∉ reserved m := key_notMem_of_mem_assign hname
    rw [m.mem_reserved_iff] at hfree
    push Not at hfree
    obtain ⟨htables, hviews, hprocedures⟩ := hfree
    exact ⟨fun t ht h => htables t ht ((lowerCase_eq_iff _ _).1 h),
      fun v hv h => hviews v hv ((lowerCase_eq_iff _ _).1 h),
      fun p hp h => hprocedures p hp ((lowerCase_eq_iff _ _).1 h)⟩

/-- A manifest whose triggers have the names of a table, of a view and of each other. -/
def collidingTriggers : Manifest :=
  let trigger name : Trigger := ⟨name, "wp_" ++ name, "", "AFTER INSERT", "orders", "BEGIN END", none⟩
  { Manifest.empty "shop" "wp_" .epoch with
    tables := [.empty "orders" "wp_orders" "shop"]
    views := [⟨"Audit", "wp_Audit", "", "", none⟩]
    triggers := ["orders", "ORDERS", "audit", "stock"].map trigger }

/-- The second of them finds two candidates taken, by the table and by the first trigger. -/
theorem collidingTriggers_free : ∃ name, collidingTriggers.triggerNames[1]? = some name ∧
    name = "ORDERS_trg2" ∧ lowerCase name ≠ lowerCase "orders" ∧
      IsFirstFree (reserved collidingTriggers ++ [key "orders_trg"]) "ORDERS".toList
        name.toList := by
  obtain ⟨-, -, hfree, hfirst⟩ := collidingTriggers.triggerNames_free
  have hnames : collidingTriggers.triggerNames =
      ["orders_trg", "ORDERS_trg2", "audit_trg", "stock"] := by decide +kernel
  obtain ⟨name, hname, hwhich⟩ := hfirst 1 _ rfl
  obtain rfl : name = "ORDERS_trg2" := by
    rw [hnames] at hname
    exact (Option.some.inj hname).symm
  have hmem : "ORDERS_trg2" ∈ collidingTriggers.triggerNames := List.mem_of_getElem? hname
  refine ⟨_, hname, rfl, (hfree _ hmem).1 _ List.mem_cons_self, ?_⟩
  rw [hnames] at hwhich
  exact hwhich

end SchemaInstaller
