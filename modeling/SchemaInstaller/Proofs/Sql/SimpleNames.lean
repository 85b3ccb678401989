import SchemaInstaller.Proofs.Sql.ViewHeader

/-!
# Simple names

A name with no blank, slash, equals sign or backtick in it is left alone by every rule that the
definition of a view is rewritten by (`undisturbed_of_simple`): what a rule takes begins with a slash,
goes on behind its keyword with a blank or an equals sign, or begins with a backtick.
-/

namespace SchemaInstaller.Sql

open Scan Text

/-- A character that no rule for definitions looks for in a name. -/
def isSimple (c : Char) : Bool := !isBlank c && c != '/' && c != '=' && c != '\x60'

theorem isSimple_iff {c : Char} :
    isSimple c = true ↔ isBlank c = false ∧ c ≠ '/' ∧ c ≠ '=' ∧ c ≠ '\x60' := by
  simp [isSimple, and_assoc]

theorem dropDefiner_eq_none {prev : Option Char} {t : Text} (h : keyword "DEFINER" t = none) :
    dropDefiner prev t = none := by
  unfold dropDefiner definerClause
  rw [h]
  cases wordStart prev <;> rfl

theorem plainViewHeader_eq_none {prev : Option Char} {t : Text} (h : keyword "CREATE" t = none) :
    plainViewHeader prev t = none := by
  unfold plainViewHeader
  rw [h]
  cases wordStart prev <;> rfl

/-- Behind a keyword at the start of simple characters comes a simple character or a backtick. -/
theorem keyword_simple {w : String} (hw : w.toList.all (!sameLetter · '\x60') = true) {t r : Text}
    (ht : ∀ c ∈ t, isSimple c = true) (hkeyword : keyword w (t ++ '\x60' :: r) = some u) :
    ∃ d u', u = d :: u' ∧ isBlank d = false ∧ d ≠ '=' := by
  rw [keyword_stopsAt hw] at hkeyword
  obtain ⟨v, hv, rfl⟩ := Option.map_eq_some_iff.1 hkeyword
  obtain ⟨k, rfl, -⟩ := keyword_takes w t v hv
  cases v with
  | nil => exact ⟨'\x60', r, rfl, rfl, by decide⟩
  | cons d v =>
    obtain ⟨hblank, -, hequals, -⟩ := isSimple_iff.1 (ht d (by simp))
    exact ⟨d, v ++ '\x60' :: r, rfl, hblank, hequals⟩

theorem dropDefiner_simple {t : Text} (ht : ∀ c ∈ t, isSimple c = true) (prev : Option Char)
    (r : Text) : dropDefiner prev (t ++ '\x60' :: r) = none := by
  cases hkeyword : keyword "DEFINER" (t ++ '\x60' :: r) with
  | none => exact dropDefiner_eq_none hkeyword
  | some u =>
    obtain ⟨d, u', rfl, hblank, hequals⟩ := keyword_simple (by decide) ht hkeyword
    have hnone : literal ['='] (skipBlanks (d :: u')) = none := by
      rw [skipBlanks_of_not_isBlank hblank]
      simp [literal, List.isPrefixOf?, Ne.symm hequals]
    unfold dropDefiner definerClause
    simp only [hkeyword, hnone, Option.bind_eq_bind, Option.bind_some, Option.bind_none]
    cases wordStart prev <;> rfl

theorem plainViewHeader_simple {t : Text} (ht : ∀ c ∈ t, isSimple c = true) (prev : Option Char)
    (r : Text) : plainViewHeader prev (t ++ '\x60' :: r) = none := by
  cases hkeyword : keyword "CREATE" (t ++ '\x60' :: r) with
  | none => exact plainViewHeader_eq_none hkeyword
  | some u =>
    obtain ⟨d, u', rfl, hblank, -⟩ := keyword_simple (by decide) ht hkeyword
    have hnone : blanks1 (d :: u') = none := if_neg (by simp [hblank])
    unfold plainViewHeader
    simp only [hkeyword, hnone, Option.bind_eq_bind, Option.bind_some, Option.bind_none]
    cases wordStart prev <;> rfl

/-- An escaped name that begins with a character that is no backtick. -/
theorem eq_cons_of_escapeIdentifier {d r u : Text} {c : Char}
    (h : escapeIdentifier d ++ '\x60' :: r = c :: u) (hc : c ≠ '\x60') :
    ∃ d', d = c :: d' ∧ escapeIdentifier d' ++ '\x60' :: r = u := by
  cases d with
  | nil => exact absurd (List.cons.inj h).1.symm hc
  | cons e d =>
    by_cases he : e = '\x60'
    · subst he
      exact absurd (List.cons.inj h).1.symm hc
    · have hcons : escapeIdentifier (e :: d) = e :: escapeIdentifier d := by
        simp [escapeIdentifier, replaceChar, he]
      rw [hcons, List.cons_append] at h
      obtain ⟨rfl, hrest⟩ := List.cons.inj h
      exact ⟨d, rfl, hrest⟩

/-- A qualifier ends neither before nor in the word behind a name. -/
theorem dropSchema_eq_none {database t : Text} {prev : Option Char}
    (h : ∀ r, escapeIdentifier database ++ '\x60' :: r = t →
      ∃ c u, skipBlanks r = c :: u ∧ c ≠ '.') :
    dropSchema database prev ('\x60' :: t) = none := by
  have hscan : schemaQualifier database ('\x60' :: t) = none := by
    unfold schemaQualifier
    cases hliteral : literal (quoteIdentifier database) ('\x60' :: t) with
    | none => rfl
    | some r =>
      have heq := List.isPrefixOf?_eq_some_iff_append_eq.1 hliteral
      unfold quoteIdentifier at heq
      rw [List.cons_append, List.cons_append, List.append_assoc] at heq
      obtain ⟨c, u, hskip, hc⟩ := h r (List.cons.inj heq).2
      rw [Option.bind_eq_bind, Option.bind_some, hskip]
      simp [literal, List.isPrefixOf?, Ne.symm hc]
  unfold dropSchema
  rw [hscan]
  rfl

/-- A name that is quoted for another and escaped has its first backtick where that one has. -/
theorem eq_of_escapeIdentifier {d r t u : Text} {c : Char} (ht : '\x60' ∉ t) (hc : c ≠ '\x60')
    (h : escapeIdentifier d ++ '\x60' :: r = t ++ '\x60' :: c :: u) : r = c :: u := by
  induction t generalizing d with
  | nil =>
    cases d with
    | nil => exact (List.cons.inj h).2
    | cons e d =>
      by_cases he : e = '\x60'
      · subst he
        exact absurd (List.cons.inj (List.cons.inj h).2).1.symm hc
      · have hcons : escapeIdentifier (e :: d) = e :: escapeIdentifier d := by
          simp [escapeIdentifier, replaceChar, he]
        rw [hcons] at h
        exact absurd (List.cons.inj h).1 he
  | cons e t ih =>
    obtain ⟨d', rfl, hrest⟩ := eq_cons_of_escapeIdentifier h fun he => ht (he ▸ List.mem_cons_self)
    exact ih (fun hin => ht (List.mem_cons_of_mem e hin)) hrest

theorem dropSchema_name_inert {database name : Text} (hname : '\x60' ∉ name)
    (hdatabase : ¬[' ', 'A', 'S'] <+: database) :
    (dropSchema database).Inert (some 'W') (namePart name) := by
  have hother : ∀ (c : Char) (prev : Option Char) (t : Text), c ≠ '\x60' →
      dropSchema database prev (c :: t) = none := by
    intro c prev t hc
    have hliteral : literal (quoteIdentifier database) (c :: t) = none := by
      simp [quoteIdentifier, literal, List.isPrefixOf?, Ne.symm hc]
    unfold dropSchema schemaQualifier
    rw [hliteral]
    rfl
  have hend : ∀ prev, (dropSchema database).Inert prev ['\x60', ' ', 'A', 'S'] := by
    intro prev
    refine .cons (fun rest => dropSchema_eq_none fun r hr => ?_) <|
      .cons (fun _ => hother _ _ _ (by decide)) <| .cons (fun _ => hother _ _ _ (by decide)) <|
        .cons (fun _ => hother _ _ _ (by decide)) .nil
    -- the closing backtick would open the qualifier
    obtain ⟨d₁, h₁, hr⟩ := eq_cons_of_escapeIdentifier hr (by decide)
    obtain ⟨d₂, h₂, hr⟩ := eq_cons_of_escapeIdentifier hr (by decide)
    obtain ⟨d₃, h₃, -⟩ := eq_cons_of_escapeIdentifier hr (by decide)
    exact absurd ⟨d₃, by rw [h₁, h₂, h₃]; rfl⟩ hdatabase
  have hmiddle := Rule.Inert.append_of_forall (x := name) (y := ['\x60', ' ', 'A', 'S'])
    (fun c t hsuffix prev rest => hother c prev _ fun hc =>
      hname (hc ▸ hsuffix.subset List.mem_cons_self)) hend (some '\x60')
  refine .cons (fun _ => hother _ _ _ (by decide)) (.cons (fun rest => ?_) hmiddle)
  refine dropSchema_eq_none fun r hr => ?_
  have htext : escapeIdentifier database ++ '\x60' :: r =
      name ++ '\x60' :: ' ' :: 'A' :: 'S' :: rest := by
    simpa using hr
  obtain rfl := eq_of_escapeIdentifier hname (by decide) htext
  exact ⟨'A', 'S' :: rest, rfl, by decide⟩

/-- A rule that finds nothing in simple characters before a backtick finds nothing in a name. -/
theorem simple_inert {rule : Rule} {name : Text} (hname : ∀ c ∈ name, isSimple c = true)
    (hrule : ∀ c t, (∀ d ∈ c :: t, isSimple d = true) → ∀ prev r,
      rule prev (c :: (t ++ '\x60' :: r)) = none)
    (hstart : ∀ r, rule (some 'W') (' ' :: '\x60' :: r) = none)
    (hopen : ∀ r, rule (some ' ') ('\x60' :: r) = none)
    (hclose : ∀ prev r, rule prev ('\x60' :: ' ' :: 'A' :: 'S' :: r) = none)
    (hword : rule.Inert (some '\x60') [' ', 'A', 'S']) :
    rule.Inert (some 'W') (namePart name) := by
  have hend : ∀ prev, rule.Inert prev ['\x60', ' ', 'A', 'S'] := fun prev =>
    .cons (fun _ => hclose prev _) hword
  have hmiddle := Rule.Inert.append_of_forall (x := name) (y := ['\x60', ' ', 'A', 'S'])
    (fun c t hsuffix prev rest => ?_) hend (some '\x60')
  · exact .cons (fun _ => hstart _) (.cons (fun _ => hopen _) hmiddle)
  · rw [List.append_assoc]
    exact hrule c t (fun d hd => hname d (hsuffix.subset hd)) prev _

/-- A simple name is left alone, unless the database is called like the word behind the name. -/
theorem undisturbed_of_simple {database name : Text} (hsimple : name.all isSimple = true)
    (hdatabase : ¬[' ', 'A', 'S'] <+: database) : Undisturbed database name := by
  have hname := List.all_eq_true.1 hsimple
  intro rule hrule
  simp only [viewRules, List.mem_cons, List.not_mem_nil, or_false] at hrule
  rcases hrule with rfl | rfl | rfl | rfl | rfl
  · refine simple_inert hname ?_ (fun _ => rfl) (fun _ => rfl) (fun _ _ => rfl) ?_
    · intro c t ht prev r
      obtain ⟨-, hslash, -, -⟩ := isSimple_iff.1 (ht c List.mem_cons_self)
      have hliteral : literal "/*!".toList (c :: (t ++ '\x60' :: r)) = none := by
        simp [literal, List.isPrefixOf?, Ne.symm hslash]
      unfold versionedComment
      rw [hliteral]
      rfl
    · exact .cons (fun _ => rfl) (.cons (fun _ => rfl) (.cons (fun _ => rfl) .nil))
  · refine simple_inert hname (fun c t ht prev r => dropDefiner_simple ht prev r) (fun _ => rfl)
      (fun _ => rfl) (fun _ _ => dropDefiner_eq_none rfl) ?_
    exact .cons (fun _ => rfl) (.cons (fun _ => rfl) (.cons (fun _ => rfl) .nil))
  · refine simple_inert hname ?_ (fun _ => rfl) (fun _ => rfl) (fun _ _ => rfl) ?_
    · intro c t ht prev r
      obtain ⟨hblank, -⟩ := isSimple_iff.1 (ht c List.mem_cons_self)
      have hspace : isSpace c = false := by
        cases hc : isSpace c with
        | false => rfl
        | true =>
          rw [isBlank_of_isSpace hc] at hblank
          cases hblank
      unfold collapseSpaces
      rw [one, hspace]
      rfl
    · exact .cons (fun _ => rfl) (.cons (fun _ => rfl) (.cons (fun _ => rfl) .nil))
  · refine simple_inert hname (fun c t ht prev r => plainViewHeader_simple ht prev r) (fun _ => rfl)
      (fun _ => rfl) (fun _ _ => plainViewHeader_eq_none rfl) ?_
    exact .cons (fun _ => rfl) (.cons (fun _ => rfl) (.cons (fun _ => rfl) .nil))
  · exact dropSchema_name_inert (fun hin => (isSimple_iff.1 (hname _ hin)).2.2.2 rfl) hdatabase

end SchemaInstaller.Sql
