import SchemaInstaller.Proofs.Installer.ClassFile
import SchemaInstaller.Proofs.Php.Values
import SchemaInstaller.Proofs.Sql.Renaming

/-!
# Statements on a site

A statement reaches the host in two steps: PHP puts the prefix of the site in the place of each
expression when it works out the literal, and the installer then puts it in the place of each token
(`applyPrefix`). Both together give the text in which the prefix has been resolved
(`applyPrefix_doubleQuoted`).

The statement that arrives is `sent`. Characters that expressions and tokens do not have part it
(`sent_append_cons`), and a text comes out as it is under every prefix exactly if it has no
expression, no token and no carriage return (`Lasts`).
-/

namespace SchemaInstaller

open Php Sql Text

/-! ## The method for the prefix -/

/-- Every copy of a text, in any case of ASCII letters, gives way to another. -/
def Text.replaceAnyCase (old new t : Text) : Text := t.substitute ((Scan.anyCase old).rule new)

/-- What the method for the prefix looks for: its texts between single quotes, put together. -/
def ClassFile.searched : Text :=
  ((scan .code (prefixMethod.flatMap Line.render)).getD []).flatMap fun l =>
    if l.place = .singleQuoted then l.valueAt [] else []

/-- What the method for the prefix makes of a statement. -/
def applyPrefix (q t : Text) : Text := replaceAnyCase ClassFile.searched q t

theorem ClassFile.searched_eq : searched = ['\x7b', 'w', 'p', '_', '\x7d'] := by
  unfold searched
  simp only [prefixMethod, Line.code, List.flatMap_cons, List.flatMap_nil, Line.render,
    Fragment.render]
  repeat rw [String.toList_ofList]
  decide +kernel

/-- The installer looks for tokens. -/
theorem anyCase_searched : Scan.anyCase ClassFile.searched = prefixToken := by
  have hsearched : lowerAscii ClassFile.searched = ['\x7b', 'w', 'p', '_', '\x7d'] := by
    rw [ClassFile.searched_eq]
    decide
  have htoken : (Scan.anyCase ClassFile.searched).Of IsToken := by
    refine (Scan.anyCase_of _).congr fun w => ?_
    rw [hsearched]
    rfl
  exact htoken.unique prefixToken_of

theorem applyPrefix_eq (q t : Text) : applyPrefix q t = t.substitute (prefixToken.rule q) := by
  unfold applyPrefix replaceAnyCase
  rw [anyCase_searched]

/-! ## Both steps -/

/-- Without carriage returns, PHP replaces the expressions and nothing else. -/
theorem resolved_eq_replace {t : Text} (ht : '\r' ∉ t) (q : Text) :
    resolved q t = Text.replace prefixExpression q t := by
  have hliteral := Scan.literal_of prefixExpression
  show _ = substitute ((Scan.literal prefixExpression).rule q) t
  induction t using expression_induction with
  | nil => rfl
  | expression r ih =>
    have hr : '\r' ∉ r := fun h => ht (List.mem_append_right _ h)
    rw [resolved_prefixExpression, ih hr,
      substitute_of_some (hliteral.takes prefixExpression_ne_nil.symm) (hliteral.eq_some rfl r)]
  | cons c r hc ih =>
    have hr : '\r' ∉ r := fun h => ht (List.mem_cons_of_mem c h)
    have hreturn : c ≠ '\r' := fun h => ht (h ▸ List.mem_cons_self)
    have hnone := (eq_none_iff_of hliteral).2 fun w hw => hw ▸ hc
    rw [resolved_cons q hc, ih hr, withoutReturn, if_neg hreturn, substitute_of_none hnone]
    rfl

/-- In the source of a text without carriage returns between double quotes, whatever follows it, PHP
finds one literal that ends where it should. Worked out with the prefix of a site, and with that
prefix put in the place of the tokens, it is the text in which the prefix has been resolved. -/
theorem applyPrefix_doubleQuoted {t : Text} (ht : '\r' ∉ t) :
    ∃ content, (∀ rest, read .code ((Fragment.doubleQuoted t).render ++ rest) =
        (read .code rest).after (.opens .doubleQuoted :: content ++ [.closes])) ∧
      (∀ e ∈ content, (∃ c, e = .text c) ∨ e = .live prefixExpression) ∧
      ∀ q, applyPrefix q (Literal.valueAt q ⟨.doubleQuoted, content⟩) = resolvePrefix q t := by
  refine ⟨spliced withoutReturn t, fun rest => ?_, fun e he => ?_, fun q => ?_⟩
  · have hopen : State.code.step '\x22' = some (.inside none .plain, [.opens .doubleQuoted]) := rfl
    rw [Fragment.render, List.cons_append, List.cons_append, read_cons_of_step _ hopen,
      read_append_eq_after rest (read_doubleQuoted t), Step.after_after]
    rfl
  · obtain ⟨a, -, ha⟩ := List.mem_flatMap.1 he
    cases a with
    | none => exact Or.inr (List.mem_singleton.1 ha)
    | some c =>
      obtain ⟨d, -, rfl⟩ := List.mem_map.1 ha
      exact Or.inl ⟨d, rfl⟩
  · rw [valueAt_spliced, applyPrefix_eq, resolved_eq_replace ht]
    rfl

/-- Quotes, backslashes, dollar signs and pieces of the expression come out as they are, beside an
expression and a token that do not. -/
theorem applyPrefix_pieces : ∃ content,
    read .code (Fragment.doubleQuoted
        "\\\x7b$this->\\\x22\x7b$this->prefix\x7d\x7d$x\n\x7bWp_\x7d\x7b$this->prefi".toList).render =
      some (.code, .opens .doubleQuoted :: content ++ [.closes]) ∧
    applyPrefix "my_".toList (Literal.valueAt "my_".toList ⟨.doubleQuoted, content⟩) =
      "\\\x7b$this->\\\x22my_\x7d$x\nmy_\x7b$this->prefi".toList := by
  obtain ⟨content, hread, -, hvalue⟩ := applyPrefix_doubleQuoted
    (t := "\\\x7b$this->\\\x22\x7b$this->prefix\x7d\x7d$x\n\x7bWp_\x7d\x7b$this->prefi".toList)
    (by decide +kernel)
  refine ⟨content, ?_, ?_⟩
  · have hall := hread []
    rw [List.append_nil, read_nil, Step.after_some, List.append_nil] at hall
    exact hall
  · rw [hvalue]
    decide +kernel

/-! ## What a site sends -/

/-- A statement as a site with a prefix sends it to the server. -/
def sent (q t : Text) : Text := applyPrefix q (resolved q t)

theorem sent_eq (q t : Text) : sent q t = (resolved q t).substitute (prefixToken.rule q) :=
  applyPrefix_eq q _

/-- A character that expressions and tokens do not have and PHP does not leave out. -/
structure IsApart (c : Char) : Prop where
  expression : c ∉ prefixExpression
  token : ∀ w, IsToken w → c ∉ w
  kept : c ≠ '\r'

theorem isApart_of_notMem {c : Char} (h : c ∉ '\r' :: prefixExpression)
    (hlower : c.toLower ∉ ['\x7b', 'w', 'p', '_', '\x7d']) : IsApart c where
  expression hin := h (List.mem_cons_of_mem _ hin)
  token _ hw hin := hlower (hw ▸ List.mem_map_of_mem hin)
  kept hc := h (hc ▸ List.mem_cons_self)

/-- A character of an expression or a token is in no class of characters apart from them. -/
theorem eq_false_of_not_isApart {p : Char → Bool} (hp : ∀ c, p c = true → IsApart c) {c : Char}
    (hc : ¬IsApart c) : p c = false := by
  rw [← Bool.not_eq_true]
  exact fun h => hc (hp c h)

/-- Such a character parts a statement. -/
theorem sent_append_cons {c : Char} (hc : IsApart c) (q t r : Text) :
    sent q (t ++ c :: r) = sent q t ++ c :: sent q r := by
  rw [sent_eq, sent_eq, sent_eq, resolved_append_cons hc.expression hc.kept,
    substitute_append_cons prefixToken_of not_isToken_nil hc.token]

theorem sent_append {x : Text} (hx : ∀ c ∈ x, IsApart c) (q t : Text) :
    sent q (x ++ t) = x ++ sent q t := by
  induction x with
  | nil => rfl
  | cons c x ih =>
    have hparts := sent_append_cons (hx c List.mem_cons_self) q [] (x ++ t)
    have hrest := ih fun d hd => hx d (List.mem_cons_of_mem c hd)
    exact hparts.trans (congrArg (c :: ·) hrest)

/-- A text that comes out as it is on every site. -/
def Lasts (t : Text) : Prop := IsVerbatim t ∧ ¬HoldsToken t

theorem lasts_of_not_mem {t : Text} (hbrace : '\x7b' ∉ t) (hreturn : '\r' ∉ t) : Lasts t := by
  refine ⟨isVerbatim_of_not_mem hbrace hreturn, ?_⟩
  rintro ⟨w, hw, hin⟩
  obtain ⟨c, u, rfl, hc, -⟩ := List.map_eq_cons_iff.1 hw
  refine hbrace (hin.subset ?_)
  rw [← eq_of_toLower_eq (by decide) hc]
  exact List.mem_cons_self

theorem sent_of_lasts {t : Text} (h : Lasts t) (q : Text) : sent q t = t := by
  rw [sent_eq, resolved_of_isVerbatim h.1]
  exact substitute_of_forall_not_infix prefixToken_of fun w hw hin => h.2 ⟨w, hw, hin⟩

/-- A text comes out as it is on every site only if it does where the prefix is empty. -/
theorem lasts_of_sent_nil {t : Text} (h : sent [] t = t) : Lasts t := by
  rw [sent_eq] at h
  have htoken := substitute_nil_length prefixToken_of not_isToken_nil (resolved [] t)
  rw [h] at htoken
  have hverbatim : IsVerbatim t := (resolved_length t).2 htoken.1
  rw [resolved_of_isVerbatim hverbatim] at htoken
  refine ⟨hverbatim, ?_⟩
  rintro ⟨w, hw, hin⟩
  exact htoken.2 (Nat.le_refl _) w hw hin

/-- Characters that neither expressions nor tokens nor the prefix have may be written twice before
or after. -/
theorem sent_doubled {p : Char → Bool} {q : Text} (hq : ∀ c ∈ q, p c = false)
    (hp : ∀ c, p c = true → IsApart c) (t : Text) : sent q (doubled p t) = doubled p (sent q t) := by
  have hexpression : ∀ c ∈ prefixExpression, p c = false :=
    fun c hc => eq_false_of_not_isApart hp fun h => h.expression hc
  have htoken : ∀ w, IsToken w → ∀ c ∈ w, p c = false :=
    fun w hw c hc => eq_false_of_not_isApart hp fun h => h.token w hw hc
  have hreturn : p '\r' = false := eq_false_of_not_isApart hp fun h => h.kept rfl
  rw [sent_eq, sent_eq, resolved_doubled hq hexpression hreturn,
    substitute_doubled prefixToken_of not_isToken_nil htoken hq]

end SchemaInstaller
