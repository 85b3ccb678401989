import SchemaInstaller.Proofs.Sql.Values

/-!
# Quotes around names and values

A server reads a name behind a backtick up to the first backtick that is not doubled
(`readIdentifier`), and a string behind a quote as `readString` has it. Names and strings are quoted
so that it finds just them, however many quotes and backslashes they have and wherever these stand
(`quoting_reversible`). A name is quoted at all only if a server takes it.
-/

namespace SchemaInstaller.Sql

open Text

/-! ## Names -/

/-- A name behind its opening backtick, up to the next backtick that is not doubled, and what follows
that. -/
def readName : Text → Option (Text × Text)
  | '\x60' :: '\x60' :: r => (readName r).map fun x => ('\x60' :: x.1, x.2)
  | '\x60' :: r => some ([], r)
  | c :: r => (readName r).map fun x => (c :: x.1, x.2)
  | [] => none

theorem readName_cons {c : Char} (hc : c ≠ '\x60') (r : Text) :
    readName (c :: r) = (readName r).map fun x => (c :: x.1, x.2) := by
  rw [readName]
  · exact fun _ h => absurd h hc
  · exact hc

/-- A backtick that is not followed by another one. -/
theorem readName_backtick {r : Text} (hr : r.head? ≠ some '\x60') :
    readName ('\x60' :: r) = some ([], r) := by
  rw [readName]
  rintro u rfl
  exact hr rfl

theorem escapeIdentifier_eq_doubled (t : Text) : escapeIdentifier t = doubled (· == '\x60') t := by
  unfold escapeIdentifier replaceChar doubled
  refine List.flatMap_congr fun c _ => ?_
  by_cases hc : c = '\x60'
  · rw [hc]
  · simp [hc]

theorem escapeIdentifier_append (t u : Text) :
    escapeIdentifier (t ++ u) = escapeIdentifier t ++ escapeIdentifier u :=
  List.flatMap_append

theorem escapeIdentifier_backtick (t : Text) :
    escapeIdentifier ('\x60' :: t) = '\x60' :: '\x60' :: escapeIdentifier t := rfl

theorem escapeIdentifier_of_notMem {t : Text} (h : '\x60' ∉ t) : escapeIdentifier t = t := by
  rw [escapeIdentifier_eq_doubled]
  exact doubled_of_forall fun c hc => beq_eq_false_iff_ne.2 fun heq => h (heq ▸ hc)

/-- A name comes back from between its backticks. -/
theorem readName_escapeIdentifier (n : Text) {r : Text} (hr : r.head? ≠ some '\x60') :
    readName (escapeIdentifier n ++ '\x60' :: r) = some (n, r) := by
  rw [escapeIdentifier_eq_doubled]
  induction n with
  | nil => exact readName_backtick hr
  | cons c n ih =>
    by_cases hc : c = '\x60'
    · rw [hc, doubled_cons_of_true rfl, List.cons_append, List.cons_append, readName, ih]
      rfl
    · rw [doubled_cons_of_false (by simpa using hc), List.cons_append, readName_cons hc, ih]
      rfl

/-- An identifier between backticks at the start of a text, and what follows it. No identifier has a
null character. -/
def readIdentifier : Text → Option (Text × Text)
  | '\x60' :: r => (readName r).filter fun x => '\x00' ∉ x.1
  | _ => none

theorem readIdentifier_quoteIdentifier {n r : Text} (hn : '\x00' ∉ n)
    (hr : r.head? ≠ some '\x60') : readIdentifier (quoteIdentifier n ++ r) = some (n, r) := by
  have htext : quoteIdentifier n ++ r = '\x60' :: (escapeIdentifier n ++ '\x60' :: r) := by
    simp [quoteIdentifier]
  rw [htext]
  show (readName (escapeIdentifier n ++ '\x60' :: r)).filter _ = some (n, r)
  rw [readName_escapeIdentifier n hr]
  simp [Option.filter, hn]

/-! ## Names that are quoted -/

/-- A name passes the check if it has 1 to 64 characters and none of them is null. -/
theorem checkName_eq_ok_iff {name : String} : checkName name = .ok () ↔
    1 ≤ name.length ∧ name.length ≤ 64 ∧ '\x00' ∉ name.toList := by
  have hempty : name.isEmpty = true ↔ name.length = 0 := by
    rw [String.isEmpty_iff, ← String.length_eq_zero_iff]
  unfold checkName maxNameLength
  split_ifs with h hnull hlong
  · have := hempty.1 h
    simp only [false_iff]
    omega
  · have hin : '\x00' ∈ name.toList := by simpa using hnull
    simp [hin]
  · simp only [false_iff]
    omega
  · have hout : '\x00' ∉ name.toList := by simpa using hnull
    have hpos : name.length ≠ 0 := fun h0 => h (hempty.2 h0)
    simp only [hout, not_false_eq_true, and_true, true_iff]
    omega

theorem quoteName?_eq_ok_iff {name q : String} : quoteName? name = .ok q ↔
    checkName name = .ok () ∧ q = String.ofList (quoteIdentifier name.toList) := by
  unfold quoteName?
  cases checkName name with
  | error e => simp [Except.map]
  | ok u => simp [Except.map, eq_comm]

/-! ## Strings -/

/-- A string literal at the start of a text, and what follows it. -/
def readLiteral : Text → Option (Text × Text)
  | '\x27' :: r => readString .plain r
  | _ => none

theorem readLiteral_quoteLiteral (t : Text) {r : Text} (hr : r.head? ≠ some '\x27') :
    readLiteral (quoteLiteral t ++ r) = some (t, r) := by
  have htext : quoteLiteral t ++ r = '\x27' :: (escapeLiteral t ++ '\x27' :: r) := by
    simp [quoteLiteral]
  rw [htext]
  exact readString_escapeLiteral t hr

/-! ## Both -/

/-- A name is quoted exactly if it has 1 to 64 characters and none of them is null. A server that
reads a quoted name, or a quoted value, takes all of it and nothing more, and has the name or the
value as it was. -/
theorem quoting_reversible :
    (∀ name, (∃ q, quoteName? name = .ok q) ↔
      1 ≤ name.length ∧ name.length ≤ 64 ∧ '\x00' ∉ name.toList) ∧
    (∀ name q r, quoteName? name = .ok q → r.head? ≠ some '\x60' →
      readIdentifier (q.toList ++ r) = some (name.toList, r)) ∧
    ∀ t r, r.head? ≠ some '\x27' → readLiteral (quoteLiteral t ++ r) = some (t, r) := by
  refine ⟨fun name => ?_, fun name q r hq hr => ?_, fun t r hr => readLiteral_quoteLiteral t hr⟩
  · rw [← checkName_eq_ok_iff]
    constructor
    · rintro ⟨q, hq⟩
      exact (quoteName?_eq_ok_iff.1 hq).1
    · exact fun hcheck => ⟨_, quoteName?_eq_ok_iff.2 ⟨hcheck, rfl⟩⟩
  · obtain ⟨hcheck, rfl⟩ := quoteName?_eq_ok_iff.1 hq
    rw [String.toList_ofList]
    exact readIdentifier_quoteIdentifier (checkName_eq_ok_iff.1 hcheck).2.2 hr

/-- A name of backticks in front of a point, and a value that ends in a backslash and a quote in
front of a comma. -/
theorem quoting_reversible_edges :
    quoteName? "\x60\x60" = .ok "\x60\x60\x60\x60\x60\x60" ∧
    readIdentifier "\x60\x60\x60\x60\x60\x60.x".toList = some ("\x60\x60".toList, ".x".toList) ∧
    readLiteral (quoteLiteral "'a\\'".toList ++ ", 2".toList) =
      some ("'a\\'".toList, ", 2".toList) := by
  have hname : quoteName? "\x60\x60" = .ok "\x60\x60\x60\x60\x60\x60" := by decide +kernel
  refine ⟨hname, ?_, quoting_reversible.2.2 _ _ (by decide)⟩
  exact quoting_reversible.2.1 _ _ ['.', 'x'] hname (by decide)

end SchemaInstaller.Sql
