import SchemaInstaller.Proofs.Sql.Sanitize
import SchemaInstaller.Sql.Identifier

/-!
# The header of a view

A server shows the definition of a view with an algorithm, an owner and whose rights count in front
of the name (`ViewHeader`). Sanitizing takes these clauses out and leaves the name alone, unless one
of its rules finds something in the name itself (`Undisturbed`); what stands behind the name has no
say in that (`sanitizeView_definition`).
-/

namespace SchemaInstaller.Sql

open Scan Text

/-! ## Owners -/

/-- The user or the host of an account as it is written. -/
inductive AccountPart
  | quoted (q : Char) (t : Text) (hq : q ∈ ['\x60', '\x27', '\x22']) (ht : q ∉ t)
  | bare (c : Char) (t : Text) (h : ∀ d ∈ c :: t, isAccountChar d = true)

def AccountPart.text : AccountPart → Text
  | quoted q t _ _ => q :: (t ++ [q])
  | bare c t _ => c :: t

/-- The owner of a definition as it is written. A user without quotes must not begin as the current
user does. -/
inductive Owner
  | currentUser (parentheses : Bool)
  | account (user host : AccountPart) (h : keyword "CURRENT_USER" user.text = none)

def Owner.text : Owner → Text
  | currentUser parentheses => "CURRENT_USER".toList ++ if parentheses then ['(', ')'] else []
  | account user host _ => user.text ++ '@' :: host.text

theorem Owner.text_currentUser (parentheses : Bool) : (currentUser parentheses).text =
    "CURRENT_USER".toList ++ if parentheses then ['(', ')'] else [] := by rfl

theorem Owner.text_account {user host : AccountPart} (h : keyword "CURRENT_USER" user.text = none) :
    (account user host h).text = user.text ++ '@' :: host.text := by rfl

theorem isBlank_of_isAccountChar {c : Char} (h : isAccountChar c = true) : isBlank c = false := by
  unfold isAccountChar at h
  simp only [Bool.or_eq_true] at h
  have hletter : ∀ k, k.isLower = true → sameLetter k c = true → isBlank c = false := by
    intro k hk hkc
    rcases isAlphanum_of_sameLetter hk hkc with hc | rfl | rfl
    · exact isBlank_of_isAlphanum hc
    · rfl
    · rfl
  rcases h with ((h | h) | h) | h
  · exact isBlank_of_isAlphanum h
  · have hmarks : "_.$%:-".toList.all (!isBlank ·) = true := by decide
    have hc := List.all_eq_true.1 hmarks c (List.contains_iff_mem.1 h)
    rw [Bool.not_eq_true'] at hc
    exact hc
  · exact hletter 's' rfl h
  · exact hletter 'k' rfl h

/-- A user or a host is read up to the next character that belongs to neither. -/
theorem accountPart_text (a : AccountPart) {c : Char} (hc : isAccountChar c = false) (r : Text) :
    accountPart (a.text ++ c :: r) = some (c :: r) := by
  unfold accountPart orElse
  cases a with
  | quoted q t hq ht =>
    have htext : (AccountPart.quoted q t hq ht).text ++ c :: r = q :: (t ++ q :: c :: r) := by
      simp [AccountPart.text]
    have hread := quotedBy_append ht (c :: r)
    rw [htext]
    simp only [List.mem_cons, List.not_mem_nil, or_false] at hq
    rcases hq with rfl | rfl | rfl
    · rw [hread, Option.some_or]
    · rw [quotedBy_of_ne (by decide), hread, Option.none_or, Option.some_or]
    · rw [quotedBy_of_ne (by decide), quotedBy_of_ne (by decide), hread, Option.none_or,
        Option.none_or, Option.some_or]
  | bare d t h =>
    have hd := h d List.mem_cons_self
    have hquote : ∀ q ∈ ['\x60', '\x27', '\x22'], d ≠ q := by
      rintro q hq rfl
      simp only [List.mem_cons, List.not_mem_nil, or_false] at hq
      rcases hq with rfl | rfl | rfl <;> cases hd
    have hword : (t ++ c :: r).dropWhile isAccountChar = c :: r := by
      rw [List.dropWhile_append_of_pos fun e he => h e (List.mem_cons_of_mem d he),
        List.dropWhile_cons_of_neg (by rw [hc]; exact Bool.false_ne_true)]
    rw [AccountPart.text, List.cons_append, quotedBy_of_ne (hquote _ (by decide)),
      quotedBy_of_ne (hquote _ (by decide)), quotedBy_of_ne (hquote _ (by decide)), many1,
      if_pos hd, hword]
    rfl

/-- The parentheses that the current user may have. -/
def emptyParentheses : Scan := fun t => do
  let t ← literal ['('] (skipBlanks t)
  literal [')'] (skipBlanks t)

theorem currentUser_eq (t : Text) :
    currentUser t = (keyword "CURRENT_USER" t).map (Scan.optional emptyParentheses) := by
  unfold currentUser
  cases keyword "CURRENT_USER" t <;> rfl

theorem skipBlanks_accountPart (a : AccountPart) (r : Text) :
    skipBlanks (a.text ++ r) = a.text ++ r := by
  cases a with
  | quoted q t hq ht =>
    have hblank : isBlank q = false := by
      simp only [List.mem_cons, List.not_mem_nil, or_false] at hq
      rcases hq with rfl | rfl | rfl <;> rfl
    exact skipBlanks_of_not_isBlank hblank _
  | bare c t h =>
    exact skipBlanks_of_not_isBlank (isBlank_of_isAccountChar (h c List.mem_cons_self)) _

/-- An owner is read up to the space behind it. -/
theorem owner_text (o : Owner) {c : Char} (hc : isBlank c = false) (hparen : c ≠ '(') (r : Text) :
    orElse currentUser account (o.text ++ ' ' :: c :: r) = some (' ' :: c :: r) := by
  unfold orElse
  cases o with
  | currentUser parentheses =>
    have hbehind : Scan.optional emptyParentheses
        ((if parentheses then ['(', ')'] else []) ++ ' ' :: c :: r) = ' ' :: c :: r := by
      cases parentheses with
      | true => rfl
      | false =>
        have hnone : emptyParentheses (' ' :: c :: r) = none := by
          unfold emptyParentheses
          rw [skipBlanks_space hc]
          simp [literal, List.isPrefixOf?, Ne.symm hparen]
        unfold Scan.optional
        exact congrArg (Option.getD · _) hnone
    rw [Owner.text_currentUser, List.append_assoc, currentUser_eq, keyword_append "CURRENT_USER",
      Option.map_some, hbehind, Option.some_or]
  | account user host h =>
    have hcurrent : keyword "CURRENT_USER" (user.text ++ '@' :: (host.text ++ ' ' :: c :: r)) =
        none := by
      rw [keyword_stopsAt (by decide), h]
      rfl
    have hat : literal ['@'] (skipBlanks ('@' :: (host.text ++ ' ' :: c :: r))) =
        some (host.text ++ ' ' :: c :: r) := rfl
    rw [Owner.text_account, List.append_assoc, List.cons_append, currentUser_eq, hcurrent,
      Option.map_none, Option.none_or]
    unfold account
    simp only [accountPart_text user (c := '@') rfl, hat, Option.bind_eq_bind, Option.bind_some]
    rw [skipBlanks_accountPart, accountPart_text host rfl]

/-- The clause that names an owner is read with the space behind it. -/
theorem definerClause_owner (o : Owner) {c : Char} (hc : isBlank c = false) (hparen : c ≠ '(')
    (r : Text) :
    definerClause (some ' ') ("DEFINER=".toList ++ (o.text ++ ' ' :: c :: r)) = some (c :: r) := by
  have hskip : skipBlanks (o.text ++ ' ' :: c :: r) = o.text ++ ' ' :: c :: r := by
    cases o with
    | currentUser parentheses => rfl
    | account user host h =>
      rw [Owner.text_account, List.append_assoc]
      exact skipBlanks_accountPart user _
  have hread : definerClause (some ' ') ("DEFINER=".toList ++ (o.text ++ ' ' :: c :: r)) =
      (orElse currentUser account (skipBlanks (o.text ++ ' ' :: c :: r))).bind
        fun t => some (skipBlanks t) := by rfl
  rw [hread, hskip, owner_text o hc hparen, Option.bind_some, skipBlanks_space hc]

/-! ## Headers -/

/-- How a server is to work a view out. -/
inductive Algorithm
  | undefined
  | merge
  | temptable
  deriving Repr, DecidableEq

def Algorithm.clause : Algorithm → Text
  | undefined => "ALGORITHM=UNDEFINED ".toList
  | merge => "ALGORITHM=MERGE ".toList
  | temptable => "ALGORITHM=TEMPTABLE ".toList

/-- Whose rights count when a view is used. -/
inductive Rights
  | definer
  | invoker
  deriving Repr, DecidableEq

def Rights.clause : Rights → Text
  | definer => "SQL SECURITY DEFINER ".toList
  | invoker => "SQL SECURITY INVOKER ".toList

/-- What stands before the name in the definition of a view. -/
structure ViewHeader where
  algorithm? : Option Algorithm
  owner? : Option Owner
  rights? : Option Rights

namespace ViewHeader

/-- The header up to the owner. -/
def front (h : ViewHeader) : Text := "CREATE ".toList ++ (h.algorithm?.map Algorithm.clause).getD []

def ownerClause (h : ViewHeader) : Text :=
  (h.owner?.map fun o => "DEFINER=".toList ++ o.text ++ [' ']).getD []

/-- The header behind the owner. -/
def back (h : ViewHeader) : Text := (h.rights?.map Rights.clause).getD [] ++ "VIEW".toList

def text (h : ViewHeader) : Text := h.front ++ h.ownerClause ++ h.back

/-- The header that sanitizing leaves. -/
def plain : ViewHeader := ⟨none, none, none⟩

end ViewHeader

theorem front_inert (h : ViewHeader) : dropDefiner.Inert none h.front := by
  unfold ViewHeader.front
  -- at each letter the rule fails before the end of the header, whatever stands behind that
  rcases h.algorithm? with - | - | - | - <;>
    repeat' first | exact Rule.Inert.nil | refine Rule.Inert.cons (fun _ => rfl) ?_

theorem back_inert (h : ViewHeader) : dropDefiner.Inert (some ' ') h.back := by
  unfold ViewHeader.back
  rcases h.rights? with - | - | - <;>
    repeat' first | exact Rule.Inert.nil | refine Rule.Inert.cons (fun _ => rfl) ?_

theorem collapse_inert (h : ViewHeader) : collapseSpaces.Inert none (h.front ++ h.back) := by
  unfold ViewHeader.back ViewHeader.front
  rcases h.algorithm? with - | - | - | - <;> rcases h.rights? with - | - | - <;>
    repeat' first | exact Rule.Inert.nil | refine Rule.Inert.cons (fun _ => rfl) ?_

theorem plainViewHeader_text (h : ViewHeader) (r : Text) :
    plainViewHeader none (h.front ++ h.back ++ ' ' :: r) = some ("CREATE VIEW".toList, ' ' :: r) := by
  unfold ViewHeader.back ViewHeader.front
  rcases h.algorithm? with - | - | - | - <;> rcases h.rights? with - | - | - <;> rfl

/-! ## Names -/

/-- The name of a view as it stands in a definition, with what surrounds it. -/
def namePart (name : Text) : Text := [' ', '\x60'] ++ name ++ ['\x60', ' ', 'A', 'S']

/-- The rule that takes the qualifier of a database out. -/
def dropSchema (database : Text) : Rule := fun _ t => (schemaQualifier database t).map ([], ·)

/-- The rules that the definition of a view is rewritten by before its prefix is looked for. -/
def viewRules (database : Text) : List Rule :=
  [versionedComment, dropDefiner, collapseSpaces, plainViewHeader, dropSchema database]

/-- A name in which no rule finds anything, whatever follows in the definition. -/
def Undisturbed (database name : Text) : Prop :=
  ∀ rule ∈ viewRules database, rule.Inert (some 'W') (namePart name)

/-- The definition of a view up to the name and the word behind it, and the rest. -/
def viewDefinition (h : ViewHeader) (name tail : Text) : Text := h.text ++ namePart name ++ tail

/-! ## Sanitizing -/

/-- Where no comment starts, and none can start at the end, nothing is unwrapped. -/
theorem versionedComment_inert {x : Text} (h : ¬['/', '*', '!'] <:+: x) {c : Char}
    (hx : x.getLast? = some c) (hslash : c ≠ '/') (hstar : c ≠ '*') (prev : Option Char) :
    versionedComment.Inert prev x := by
  rintro a b rest rfl hb
  have hnone : literal "/*!".toList (b ++ rest) = none := by
    cases hstart : literal "/*!".toList (b ++ rest) with
    | none => rfl
    | some r =>
      have hbr : ['/', '*', '!'] ++ r = b ++ rest := List.isPrefixOf?_eq_some_iff_append_eq.1 hstart
      rw [List.getLast?_append_of_ne_nil _ hb] at hx
      match b with
      | [d] =>
        cases hx
        exact absurd (List.cons.inj hbr).1.symm hslash
      | [d, e] =>
        cases hx
        exact absurd (List.cons.inj (List.cons.inj hbr).2).1.symm hstar
      | d :: e :: f :: b =>
        simp only [List.cons_append, List.nil_append, List.cons.injEq] at hbr
        obtain ⟨rfl, rfl, rfl, -⟩ := hbr
        exact absurd ⟨a, b, by simp⟩ h
  unfold versionedComment
  rw [hnone]
  rfl

section Pass

variable {h : ViewHeader} {database name : Text}

theorem getLast?_header (h : ViewHeader) : (h.front ++ h.back).getLast? = some 'W' := by
  unfold ViewHeader.back
  rw [← List.append_assoc, List.getLast?_append]
  rfl

theorem getLast?_back (h : ViewHeader) : h.back.getLast? = some 'W' := by
  unfold ViewHeader.back
  rw [List.getLast?_append]
  rfl

theorem getLast?_text (h : ViewHeader) : h.text.getLast? = some 'W' := by
  unfold ViewHeader.text ViewHeader.back
  rw [← List.append_assoc, List.getLast?_append]
  rfl

theorem getLast?_namePart (name : Text) : (namePart name).getLast? = some 'S' := by
  unfold namePart
  rw [List.getLast?_append]
  rfl

/-- What a rule that applies neither in the header nor in the name leaves behind the name. -/
theorem substitute_definition {rule : Rule} {x : Text} (hx : rule.Inert none x)
    (hlast : x.getLast? = some 'W') (hname : rule.Inert (some 'W') (namePart name)) (tail : Text) :
    ∃ tail', (x ++ namePart name ++ tail).substitute rule = x ++ namePart name ++ tail' := by
  have hinert : rule.Inert none (x ++ namePart name) := by
    refine hx.append ?_
    rw [hlast]
    exact hname
  exact ⟨_, hinert.substituteFrom tail⟩

theorem unwrap_definition (hcomment : ¬['/', '*', '!'] <:+: h.text)
    (hname : Undisturbed database name) (tail : Text) :
    ∃ tail', (viewDefinition h name tail).substitute versionedComment = viewDefinition h name tail' :=
  substitute_definition (versionedComment_inert hcomment (getLast?_text h) (by decide) (by decide) _)
    (getLast?_text h) (hname _ (by simp [viewRules])) tail

theorem getLast?_front (h : ViewHeader) : h.front.getLast? = some ' ' := by
  unfold ViewHeader.front
  rcases h.algorithm? with - | - | - | - <;> rfl

theorem back_eq_cons (h : ViewHeader) :
    ∃ c r, h.back = c :: r ∧ isBlank c = false ∧ c ≠ '(' := by
  unfold ViewHeader.back
  rcases h.rights? with - | - | -
  · exact ⟨'V', _, rfl, rfl, by decide⟩
  · exact ⟨'S', _, rfl, rfl, by decide⟩
  · exact ⟨'S', _, rfl, rfl, by decide⟩

/-- The owner goes. -/
theorem substituteFrom_ownerClause (h : ViewHeader) {c : Char} (hc : isBlank c = false)
    (hparen : c ≠ '(') (r : Text) :
    substituteFrom dropDefiner 0 (some ' ') (h.ownerClause ++ c :: r) =
      substituteFrom dropDefiner 0 (some ' ') (c :: r) := by
  unfold ViewHeader.ownerClause
  cases h.owner? with
  | none => rfl
  | some o =>
    show substituteFrom dropDefiner 0 (some ' ') ("DEFINER=".toList ++ o.text ++ [' '] ++ c :: r) = _
    have hmatch : dropDefiner (some ' ') ("DEFINER=".toList ++ o.text ++ [' '] ++ c :: r) =
        some ([], c :: r) := by
      have hclause := definerClause_owner o hc hparen r
      unfold dropDefiner
      simp only [List.append_assoc, List.cons_append, List.nil_append, hclause, Option.map_some]
    have hne : "DEFINER=".toList ++ o.text ++ [' '] ≠ [] := by simp
    rw [substituteFrom_of_some hne hmatch, List.getLast?_append]
    rfl

theorem dropDefiner_definition (hname : Undisturbed database name) (tail : Text) :
    ∃ tail', (viewDefinition h name tail).substitute dropDefiner =
      h.front ++ h.back ++ namePart name ++ tail' := by
  obtain ⟨c, r, hcr, hc, hparen⟩ := back_eq_cons h
  have htext : viewDefinition h name tail =
      h.front ++ (h.ownerClause ++ c :: (r ++ namePart name ++ tail)) := by
    simp only [viewDefinition, ViewHeader.text, hcr, List.append_assoc, List.cons_append]
  have hbehind : c :: (r ++ namePart name ++ tail) = h.back ++ namePart name ++ tail := by
    simp only [hcr, List.cons_append]
  have hback : dropDefiner.Inert (some ' ') (h.back ++ namePart name) := by
    refine (back_inert h).append ?_
    rw [getLast?_back, Option.some_or]
    exact hname _ (by simp [viewRules])
  refine ⟨substituteFrom dropDefiner 0 ((h.back ++ namePart name).getLast?.or (some ' ')) tail, ?_⟩
  rw [htext]
  unfold Text.substitute
  rw [(front_inert h).substituteFrom, getLast?_front, Option.some_or,
    substituteFrom_ownerClause h hc hparen, hbehind, hback.substituteFrom]
  simp only [List.append_assoc]

theorem trim_definition (h : ViewHeader) (name tail : Text) :
    (h.front ++ h.back ++ namePart name ++ tail).trim =
      h.front ++ h.back ++ namePart name ++ tail.trimEnd := by
  have hstart : (h.front ++ h.back ++ namePart name ++ tail).trimStart =
      h.front ++ h.back ++ namePart name ++ tail := by rfl
  have hlast : (h.front ++ h.back ++ namePart name).getLast? = some 'S' := by
    rw [List.getLast?_append, getLast?_namePart, Option.some_or]
  unfold trim
  rw [hstart]
  exact trimEnd_append hlast rfl tail

/-- The header becomes plain. -/
theorem plainViewHeader_definition (hname : Undisturbed database name) (tail : Text) :
    ∃ tail', (h.front ++ h.back ++ namePart name ++ tail).substitute plainViewHeader =
      viewDefinition .plain name tail' := by
  have hmatch : plainViewHeader none (h.front ++ h.back ++ (namePart name ++ tail)) =
      some ("CREATE VIEW".toList, namePart name ++ tail) := plainViewHeader_text h _
  have hne : h.front ++ h.back ≠ [] := by
    intro hnil
    have hlast := getLast?_header h
    rw [hnil] at hlast
    cases hlast
  have hinert : plainViewHeader.Inert (some 'W') (namePart name) := hname _ (by simp [viewRules])
  refine ⟨substituteFrom plainViewHeader 0 ((namePart name).getLast?.or (some 'W')) tail, ?_⟩
  unfold Text.substitute
  rw [List.append_assoc (h.front ++ h.back), substituteFrom_of_some hne hmatch, getLast?_header,
    Option.some_or, hinert.substituteFrom]
  exact (List.append_assoc _ _ _).symm

/-- A pass takes the clauses out of the header and keeps the name. -/
theorem viewPass_definition (hcomment : ¬['/', '*', '!'] <:+: h.text)
    (hname : Undisturbed database name) (tail : Text) :
    ∃ tail', viewPass (viewDefinition h name tail) = viewDefinition .plain name tail' := by
  obtain ⟨tail₁, hunwrap⟩ := unwrap_definition hcomment hname tail
  obtain ⟨tail₂, hdrop⟩ := dropDefiner_definition (h := h) hname tail₁
  obtain ⟨tail₃, hcollapse⟩ := substitute_definition (collapse_inert h) (getLast?_header h)
    (hname _ (by simp [viewRules])) tail₂
  unfold viewPass definerPass
  rw [hunwrap, hdrop, hcollapse, trim_definition]
  exact plainViewHeader_definition hname _

/-- Sanitizing takes the clauses out of the header of a view and keeps its name. -/
theorem sanitizeView_definition (hcomment : ¬['/', '*', '!'] <:+: h.text)
    (hname : Undisturbed database name) (tail : Text) :
    ∃ tail', sanitizeView (viewDefinition h name tail) = viewDefinition .plain name tail' := by
  have hblank : (viewDefinition h name tail).isBlankOnly = false := by rfl
  obtain ⟨n, -, hsettles⟩ := Sanitizer.view.settles_sanitize hblank
  have hslash : '/' ∉ "CREATE VIEW".toList := by decide
  have hplain : ¬['/', '*', '!'] <:+: ViewHeader.plain.text := fun h =>
    hslash (h.subset List.mem_cons_self)
  -- every pass gives the plain form, and the last one gives the result back
  have hshape := hsettles.induct
    (p := fun t => ∃ tail', viewPass t = viewDefinition .plain name tail')
    (fun t ht => by
      obtain ⟨tail₁, ht⟩ := ht
      rw [show Sanitizer.view.pass t = _ from ht]
      exact viewPass_definition hplain hname tail₁)
    (viewPass_definition hcomment hname tail)
  obtain ⟨tail', hpass⟩ := hshape
  exact ⟨tail', hsettles.pass_eq.symm.trans hpass⟩

end Pass

/-! ## Qualifiers -/

theorem stripSchema_eq (database t : Text) :
    stripSchema database t = if database.isEmpty then t else t.substitute (dropSchema database) := rfl

theorem plain_inert (database : Text) : (dropSchema database).Inert none ViewHeader.plain.text := by
  show (dropSchema database).Inert none "CREATE VIEW".toList
  repeat' first | exact Rule.Inert.nil | refine Rule.Inert.cons (fun _ => rfl) ?_

/-- Taking qualifiers out keeps the name of a view. -/
theorem stripSchema_definition {database name : Text} (hname : Undisturbed database name)
    (tail : Text) :
    ∃ tail', stripSchema database (viewDefinition .plain name tail) =
      viewDefinition .plain name tail' := by
  rw [stripSchema_eq]
  split
  · exact ⟨tail, rfl⟩
  · exact substitute_definition (plain_inert database) (getLast?_text _)
      (hname _ (by simp [viewRules])) tail

end SchemaInstaller.Sql
