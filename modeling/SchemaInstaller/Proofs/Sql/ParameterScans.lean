import SchemaInstaller.Proofs.Sql.ParameterOpening
import SchemaInstaller.Proofs.Sql.TopLevel
import SchemaInstaller.Proofs.Text.Bytes

/-!
# The scans of a parameter list

The list and its pieces are parts of the definition, cut out at bytes that the scanners remember:
that of the opening parenthesis and that behind the last comma. Such a scan fails where it counts
below zero or cuts a character in two (`ScanFault`). None does either, and what is found is what the
scanners over characters find (`parameterListScan_eq`, `topLevelScan_eq`). So the list of a
definition is what is between its opening parenthesis and the first one that closes it, and its
pieces lose nothing but the commas at its top level (`parameter_scans_lossless`).
-/

namespace SchemaInstaller.Sql

open Scan Text

/-! ## Scans over bytes -/

/-- How a scan over bytes can fail: it counts a parenthesis that closes nothing, or it cuts a text
inside of a character. -/
inductive ScanFault
  | depthBelowZero
  | insideCharacter

/-- The text between two bytes. -/
def cut (t : Text) (start stop : Nat) : Except ScanFault Text :=
  match slice t start stop with
  | some u => .ok u
  | none => .error .insideCharacter

/-- One parenthesis less. -/
def countDown : Nat → Except ScanFault Nat
  | 0 => .error .depthBelowZero
  | depth + 1 => .ok depth

/-- The text between an opening parenthesis and the one that closes it, where the characters are
those from the opening one on and are counted from there. -/
def closingScan (definition : Text) (opening : Nat) :
    Nat → Option Char → List (Nat × Char) → Except ScanFault (Option Text)
  | _, _, [] => .ok none
  | depth, quote, (i, c) :: rest =>
    if quote.isSome then closingScan definition opening depth (quoteBehind quote c) rest
    else if c = '(' then closingScan definition opening (depth + 1) none rest
    else if c = ')' then
      (countDown depth).bind fun depth =>
        if depth = 0 then (cut definition (opening + 1) (opening + i)).map some
        else closingScan definition opening depth none rest
    else closingScan definition opening depth (quoteBehind quote c) rest

/-- The byte of the parenthesis that opens the list: the last one of the first heading, or the first
parenthesis. -/
def openingByte (definition : Text) : Option Nat :=
  match firstMatch headingRule none definition with
  | some (_, _, rest) => some (byteLength definition - byteLength rest - 1)
  | none =>
    if '(' ∈ definition then some (byteLength (definition.takeWhile (· != '('))) else none

/-- The text between the parentheses of the parameter list, by bytes. -/
def parameterListScan (definition : Text) : Except ScanFault (Option Text) :=
  match openingByte definition with
  | some opening =>
    (cut definition opening (byteLength definition)).bind fun rest =>
      closingScan definition opening 0 none (charIndices 0 rest)
  | none => .ok none

/-- The pieces of a list from the byte on where the current one begins. -/
def topLevelScanFrom (list : Text) :
    Nat → Nat → Option Char → List (Nat × Char) → Except ScanFault (List Text)
  | start, _, _, [] => (cut list start (byteLength list)).map ([·])
  | start, depth, quote, (i, c) :: rest =>
    if quote.isSome then topLevelScanFrom list start depth (quoteBehind quote c) rest
    else if c = '(' then topLevelScanFrom list start (depth + 1) none rest
    else if c = ')' then topLevelScanFrom list start (depth - 1) none rest
    else if c = ',' ∧ depth = 0 then
      (cut list start i).bind fun piece =>
        (topLevelScanFrom list (i + 1) depth none rest).map (piece :: ·)
    else topLevelScanFrom list start depth (quoteBehind quote c) rest

/-- The pieces between the commas outside of parentheses and quotes, by bytes. -/
def topLevelScan (list : Text) : Except ScanFault (List Text) :=
  topLevelScanFrom list 0 0 none (charIndices 0 list)

section Scans

variable {a b d list r t u : Text} {c : Char} {i opening start depth : Nat} {quote : Option Char}
  {rest : List (Nat × Char)}

/-- A text is cut without fault where its parts are. -/
theorem cut_append (a u b : Text) :
    cut (a ++ (u ++ b)) (byteLength a) (byteLength a + byteLength u) = .ok u := by
  unfold cut
  rw [slice_eq_some_iff.2 ⟨a, b, rfl, rfl, rfl⟩]

/-- As long as a parenthesis is open, the scan passes a character, and nothing is counted below
zero. -/
theorem closingScan_behind {n : Nat} {q : Option Char}
    (h : Place.behind ⟨depth + 1, quote⟩ c = ⟨n + 1, q⟩) :
    closingScan d opening (depth + 1) quote ((i, c) :: rest) =
      closingScan d opening (n + 1) q rest := by
  cases quote with
  | some q =>
    cases h
    rfl
  | none =>
    by_cases hopen : c = '('
    · subst hopen
      cases h
      rfl
    · by_cases hclose : c = ')'
      · subst hclose
        cases depth with
        | zero => cases h
        | succ depth =>
          cases h
          rfl
      · rw [Place.behind_other hopen hclose] at h
        cases h
        rw [closingScan, if_neg (by simp), if_neg hopen, if_neg hclose]

/-- The scan has passed `u` since the opening parenthesis, whose byte is the length of `a`, and adds
what it finds in `r`. -/
theorem closingScan_eq (hd : d = a ++ '(' :: (u ++ r)) :
    closingScan d (byteLength a) (depth + 1) quote (charIndices (1 + byteLength u) r) =
      .ok ((untilClosing depth quote r).map (u ++ ·)) := by
  induction r generalizing u depth quote with
  | nil => rfl
  | cons c r ih =>
    rcases untilClosing_cases depth quote c with ⟨rfl, rfl, rfl⟩ | ⟨n, q, hplace, hrest⟩
    · have hcut : cut d (byteLength a + 1) (byteLength a + (1 + byteLength u)) = .ok u := by
        have hsplit : d = (a ++ ['(']) ++ (u ++ ')' :: r) := by simp [hd]
        have hopening : byteLength (a ++ ['(']) = byteLength a + 1 := byteLength_concat a '('
        rw [← Nat.add_assoc, ← hopening, hsplit, cut_append]
      show (cut d (byteLength a + 1) (byteLength a + (1 + byteLength u))).map some = _
      rw [hcut]
      show Except.ok (some u) = Except.ok (some (u ++ []))
      rw [List.append_nil]
    · have hnext : d = a ++ '(' :: ((u ++ [c]) ++ r) := by simp [hd]
      rw [charIndices, closingScan_behind hplace, Nat.add_assoc, ← byteLength_concat, ih hnext,
        hrest, Option.map_map]
      simp [Function.comp_def]

/-- The byte of the opening parenthesis is the length of what stands before it. -/
theorem openingByte_of_isOpening (h : IsOpening d a r) : openingByte d = some (byteLength a) := by
  have hrest := behindOpening_eq_some_iff.2 ⟨a, h⟩
  have hlength : byteLength d = byteLength a + (1 + byteLength r) := by
    rw [h.split, byteLength_append, byteLength_cons]
    rfl
  unfold openingByte
  cases hmatch : firstMatch headingRule none d with
  | some m =>
    obtain rfl : m.2.2 = r := Option.some.inj ((behindOpening_of_match hmatch).symm.trans hrest)
    show some (byteLength d - byteLength m.2.2 - 1) = _
    rw [hlength]
    congr 1
    omega
  | none =>
    cases h with
    | heading h _ => exact absurd h (firstMatch_headingRule_eq_none_iff.1 hmatch _ _ _)
    | plain hd hfirst _ =>
      show (if '(' ∈ d then some (byteLength (d.takeWhile (· != '('))) else none) = _
      rw [if_pos (by simp [hd]), hd, takeWhile_paren hfirst]

theorem openingByte_of_not_mem (h : '(' ∉ d) : openingByte d = none := by
  have hnone := behindOpening_eq_none_iff.2 h
  unfold openingByte
  cases hmatch : firstMatch headingRule none d with
  | some m =>
    rw [behindOpening_of_match hmatch] at hnone
    cases hnone
  | none => exact if_neg h

theorem parameterListScan_eq (d : Text) : parameterListScan d = .ok (parameterList d) := by
  unfold parameterListScan parameterList
  cases hopening : behindOpening d with
  | none =>
    rw [openingByte_of_not_mem (behindOpening_eq_none_iff.1 hopening)]
    rfl
  | some r =>
    obtain ⟨a, ha⟩ := behindOpening_eq_some_iff.1 hopening
    have hcut : cut d (byteLength a) (byteLength d) = .ok ('(' :: r) := by
      have h := cut_append a ('(' :: r) []
      rwa [List.append_nil, ← byteLength_append, ← ha.split] at h
    rw [openingByte_of_isOpening ha]
    show ((cut d (byteLength a) (byteLength d)).bind fun rest =>
      closingScan d (byteLength a) 0 none (charIndices 0 rest)) = _
    rw [hcut]
    show closingScan d (byteLength a) 1 none (charIndices (1 + byteLength []) r) = _
    rw [closingScan_eq ha.split]
    simp

/-- The scan passes everything but a comma at the top level. -/
theorem topLevelScanFrom_behind (hc : Place.mk depth quote = .top → c ≠ ',') :
    topLevelScanFrom list start depth quote ((i, c) :: rest) =
      topLevelScanFrom list start (Place.behind ⟨depth, quote⟩ c).depth (quoteBehind quote c)
        rest := by
  cases quote with
  | some q => rfl
  | none =>
    by_cases hopen : c = '('
    · subst hopen
      rfl
    · by_cases hclose : c = ')'
      · subst hclose
        rfl
      · have hcomma : ¬(c = ',' ∧ depth = 0) := by
          rintro ⟨hcomma, rfl⟩
          exact hc rfl hcomma
        rw [Place.behind_other hopen hclose, topLevelScanFrom, if_neg (by simp), if_neg hopen,
          if_neg hclose, if_neg hcomma]

/-- The scan has passed `a` up to the last comma and `u` since, and puts `u` before the first piece
of `r`. -/
theorem topLevelScanFrom_eq (hlist : list = a ++ (u ++ r)) :
    topLevelScanFrom list (byteLength a) depth quote (charIndices (byteLength a + byteLength u) r) =
      .ok ((splitTopLevel depth quote r).modifyHead (u ++ ·)) := by
  induction r generalizing a u depth quote with
  | nil =>
    have hcut : cut list (byteLength a) (byteLength list) = .ok u := by
      have h := cut_append a u []
      rwa [← byteLength_append, List.append_nil, ← List.append_nil u, ← hlist, List.append_nil] at h
    rw [charIndices, topLevelScanFrom, hcut]
    show Except.ok [u] = Except.ok [u ++ []]
    rw [List.append_nil]
  | cons c r ih =>
    by_cases hcomma : Place.mk depth quote = .top ∧ c = ','
    · obtain ⟨hplace, rfl⟩ := hcomma
      cases hplace
      have hcut : cut list (byteLength a) (byteLength a + byteLength u) = .ok u := by
        rw [hlist, cut_append]
      have hsplit : list = (a ++ (u ++ [','])) ++ ([] ++ r) := by simp [hlist]
      have hbyte : byteLength a + byteLength u + 1 = byteLength (a ++ (u ++ [','])) := by
        rw [byteLength_append, byteLength_concat, ← Nat.add_assoc]
        rfl
      have hrest : topLevelScanFrom list (byteLength a + byteLength u + 1) 0 none
          (charIndices (byteLength a + byteLength u + 1) r) = .ok (splitTopLevel 0 none r) := by
        rw [hbyte]
        exact (ih hsplit).trans (congrArg _ (congrFun List.modifyHead_id _))
      show (cut list (byteLength a) (byteLength a + byteLength u)).bind (fun piece =>
        (topLevelScanFrom list (byteLength a + byteLength u + 1) 0 none
          (charIndices (byteLength a + byteLength u + 1) r)).map (piece :: ·)) = _
      rw [hcut, hrest, splitTopLevel_comma]
      show Except.ok (u :: splitTopLevel 0 none r) = Except.ok ((u ++ []) :: _)
      rw [List.append_nil]
    · have hc : Place.mk depth quote = .top → c ≠ ',' := fun h hc => hcomma ⟨h, hc⟩
      have hnext : list = a ++ ((u ++ [c]) ++ r) := by simp [hlist]
      rw [charIndices, topLevelScanFrom_behind hc, Nat.add_assoc, ← byteLength_concat, ih hnext,
        splitTopLevel_behind hc, List.modifyHead_modifyHead]
      simp [Function.comp_def]

theorem topLevelScan_eq (list : Text) : topLevelScan list = .ok (splitTopLevel 0 none list) :=
  (topLevelScanFrom_eq (a := []) (u := []) rfl).trans
    (congrArg _ (congrFun List.modifyHead_id _))

end Scans

/-! ## Definitions and lists -/

theorem parameterList_eq_some_iff {d l : Text} :
    parameterList d = some l ↔ ∃ a r, IsOpening d a (l ++ ')' :: r) ∧ Encloses l := by
  unfold parameterList
  rw [Option.bind_eq_some_iff]
  constructor
  · rintro ⟨t, ht, hl⟩
    obtain ⟨r, rfl, hfirst⟩ := untilClosing_eq_some_iff.1 hl
    obtain ⟨a, ha⟩ := behindOpening_eq_some_iff.1 ht
    exact ⟨a, r, ha, encloses_iff.2 hfirst⟩
  · rintro ⟨a, r, ha, hl⟩
    exact ⟨_, behindOpening_eq_some_iff.2 ⟨a, ha⟩,
      untilClosing_eq_some_iff.2 ⟨r, rfl, encloses_iff.1 hl⟩⟩

theorem parameterList_eq_none_iff {d : Text} :
    parameterList d = none ↔ '(' ∉ d ∨ ∃ a r, IsOpening d a r ∧ Unclosed r := by
  unfold parameterList
  rw [Option.bind_eq_none_iff]
  constructor
  · intro h
    cases hopening : behindOpening d with
    | none => exact .inl (behindOpening_eq_none_iff.1 hopening)
    | some r =>
      obtain ⟨a, ha⟩ := behindOpening_eq_some_iff.1 hopening
      exact .inr ⟨a, r, ha, untilClosing_eq_none_iff_unclosed.1 (h r hopening)⟩
  · rintro (hnone | ⟨a, r, ha, hr⟩) t ht
    · rw [behindOpening_eq_none_iff.2 hnone] at ht
      cases ht
    · rw [behindOpening_eq_some_iff.2 ⟨a, ha⟩] at ht
      cases ht
      exact untilClosing_eq_none_iff_unclosed.2 hr

/-- **The scans of a parameter list fail on no text and lose nothing.** They count no parenthesis
below zero and cut at characters only. A list is found exactly where a parenthesis opens it and a
first one outside of quotes closes it, and it is the text between the two. Its pieces make it up
again with the commas between them, which are those at its top level and no others. -/
theorem parameter_scans_lossless (definition list : Text) :
    parameterListScan definition = .ok (parameterList definition) ∧
    topLevelScan list = .ok (splitTopLevel 0 none list) ∧
    (∀ l, parameterList definition = some l ↔
      ∃ a r, IsOpening definition a (l ++ ')' :: r) ∧ Encloses l) ∧
    (parameterList definition = none ↔
      '(' ∉ definition ∨ ∃ a r, IsOpening definition a r ∧ Unclosed r) ∧
    IsSplit list (splitTopLevel 0 none list) :=
  ⟨parameterListScan_eq definition, topLevelScan_eq list, fun _ => parameterList_eq_some_iff,
    parameterList_eq_none_iff, isSplit_of_splits (splits_splitTopLevel 0 none list)⟩

/-- A parenthesis in quotes does not close the list. -/
example : parameterList "CREATE PROCEDURE p(a ENUM('é)'), b INT) BEGIN".toList =
    some "a ENUM('é)'), b INT".toList := by decide +kernel

end SchemaInstaller.Sql
