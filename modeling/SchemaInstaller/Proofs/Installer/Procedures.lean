import SchemaInstaller.Proofs.Installer.Prefix
import SchemaInstaller.Proofs.Installer.Reporting
import SchemaInstaller.Proofs.Sql.ProcedureHeader

/-!
# Procedures under their names

A procedure is created by its definition with another header, so that it gets the name that both
methods drop it under. `procedure_created_iff` says exactly when the statement is the definition
with nothing but its first header replaced, on every site: the search for the header must see where
the header ends, and the definition must not hold a carriage return, which no statement keeps. The
procedure then created is the one that is dropped.
-/

namespace SchemaInstaller

open Php Sql Statement Text

/-! ## Statements that come out -/

theorem count_resolved {c : Char} (hc : c ∉ prefixExpression) (hreturn : c ≠ '\r') (t : Text) :
    (resolved [] t).count c = t.count c := by
  induction t using expression_induction with
  | nil => rfl
  | expression r ih =>
    rw [resolved_prefixExpression, List.nil_append, ih, List.count_append,
      List.count_eq_zero_of_not_mem hc, Nat.zero_add]
  | cons d r hd ih =>
    rw [resolved_cons [] hd, List.count_append, ih, List.count_cons, withoutReturn]
    by_cases hdr : d = '\r'
    · rw [if_pos hdr, List.count_nil, hdr, if_neg (by simpa using Ne.symm hreturn), Nat.zero_add,
        Nat.add_zero]
    · rw [if_neg hdr, List.count_singleton, Nat.add_comm]

/-- No statement holds a carriage return that the prefix does not have. -/
theorem return_notMem_resolved {q : Text} (hq : '\r' ∉ q) (t : Text) : '\r' ∉ resolved q t := by
  intro hin
  obtain ⟨a, -, ha⟩ := List.mem_flatMap.1 hin
  cases a with
  | none => exact hq ha
  | some c =>
    have hc : '\r' ∈ withoutReturn c := ha
    unfold withoutReturn at hc
    split at hc
    · cases hc
    · exact absurd (List.mem_singleton.1 hc).symm ‹_›

theorem mem_replace {c : Char} (hc : c ∉ prefixExpression) (q : Text) {t : Text} (ht : c ∈ t) :
    c ∈ Text.replace prefixExpression q t := by
  obtain ⟨u, v, rfl⟩ := List.append_of_mem ht
  have hparts : Text.replace prefixExpression q (u ++ c :: v) =
      Text.replace prefixExpression q u ++ c :: Text.replace prefixExpression q v :=
    substitute_append_cons (Scan.literal_of prefixExpression) prefixExpression_ne_nil.symm
      (fun w hw => hw ▸ hc) u v
  rw [hparts]
  simp

/-- Where the prefix is empty, the text behind the characters of a name is no longer than the whole:
it does not start in the middle of an expression. -/
theorem length_resolved_dropWhile {t : Text} (ht : '\r' ∉ t) :
    (resolved [] (t.dropWhile isBareNameChar)).length ≤ (resolved [] t).length := by
  conv_rhs => rw [← List.takeWhile_append_dropWhile (p := isBareNameChar) (l := t)]
  cases hrest : t.dropWhile isBareNameChar with
  | nil => exact Nat.zero_le _
  | cons d x =>
    have hd : isBareNameChar d = false := by
      have hhead := List.head?_dropWhile_not isBareNameChar t
      rw [hrest] at hhead
      simpa using hhead
    have hout : d ∉ prefixExpression := by
      intro hin
      rw [isBareNameChar_prefixExpression d hin] at hd
      cases hd
    have hother : d ≠ '\r' := by
      rintro rfl
      refine ht ((List.dropWhile_sublist isBareNameChar).subset ?_)
      rw [hrest]
      exact List.mem_cons_self
    have hnil := resolved_append_cons hout hother [] [] x
    rw [resolved_append_cons hout hother, ← List.nil_append (d :: x), hnil, List.length_append,
      List.length_append]
    exact Nat.add_le_add_right (Nat.zero_le _) _

/-- The search has seen where a name ends if what it takes for the text behind the name comes out as
that text does. -/
theorem Sql.RoutineName.isClear_of_resolved {n : RoutineName} {r : Text} (hends : n.EndsAt r)
    (hr : '\r' ∉ r) (hsame : resolved [] (n.behind r) = resolved [] r) : n.IsClear r := by
  cases n with
  | quoted t ht => trivial
  | plain parts hne hparts =>
    intro c hc
    obtain ⟨x, rfl⟩ : ∃ x, r = c :: x := by
      obtain ⟨d, x, rfl⟩ := List.exists_cons_of_ne_nil (l := r) (by rintro rfl; cases hc)
      exact ⟨x, by rw [Option.some.inj hc]⟩
    rw [← Bool.not_eq_true]
    intro hbare
    have hdrop : (c :: x).dropWhile isBareNameChar = x.dropWhile isBareNameChar :=
      List.dropWhile_cons_of_pos hbare
    have hexpression : ¬prefixExpression <+: c :: x := hends _ (Or.inl rfl)
    have hother : c ≠ '\r' := fun hcr => hr (hcr ▸ List.mem_cons_self)
    rw [RoutineName.behind, hdrop, resolved_cons [] hexpression, withoutReturn,
      if_neg hother] at hsame
    have hshort := length_resolved_dropWhile fun h => hr (List.mem_cons_of_mem c h)
    have hlen := congrArg List.length hsame
    rw [List.length_append, List.length_singleton] at hlen
    omega

/-! ## The statement of a procedure -/

def createProcedureVerb : Text := "CREATE PROCEDURE ".toList

def dropProcedureVerb : Text := "DROP PROCEDURE IF EXISTS ".toList

/-- The header of a procedure of the site, between what stands before and behind it. -/
def withHeader (name : String) (a r : Text) : Text :=
  a ++ (createProcedureVerb ++ siteName name ++ r)

/-- The header ends with a backtick, whatever follows it. -/
theorem withHeader_backtick (name : String) (a : Text) :
    ∃ u, ∀ r, withHeader name a r = u ++ '\x60' :: r := by
  unfold withHeader siteName
  exact ⟨a ++ (createProcedureVerb ++ '\x60' :: prefixExpression ++ escapeIdentifier name.toList),
    fun r => by simp⟩

section Procedure

variable {m : Manifest} {p : Procedure} {t a r r' : Text} {h : ProcedureHeader}

/-- The statement of a procedure is its definition with the header of the site, and with what the
search leaves behind the header of the definition. -/
theorem createProcedure?_eq (hfirst : IsFirstHeader (portable m p.sanitized) a h r)
    (hfound : procedureHeader a.getLast? (h.text ++ r) = some r') :
    createProcedure? m p = some (withHeader p.name a r') := by
  unfold createProcedure?
  have hforced := hfirst.forceHeader_eq hfound (createProcedureVerb ++ siteName p.name)
  refine (if_neg hfirst.not_isBlankOnly).trans ?_
  unfold withHeader
  exact congrArg some hforced

/-- If what the search leaves behind a header comes out as what stands behind it, the search has
seen where the header ends. -/
theorem isClear_of_resolved (hfirst : IsFirstHeader t a h r)
    (hfound : procedureHeader a.getLast? (h.text ++ r) = some r') (hr : '\r' ∉ r)
    (hsame : resolved [] r' = resolved [] r) : h.IsClear r := by
  have hschema : ∀ q, h.qualifier? = some q → '\x60' ∉ q.schema := by
    intro q hq hin
    obtain ⟨u, hu⟩ := ProcedureHeader.procedureHeader_of_backtick (r := r) hfirst.start hq hin
    obtain rfl := Option.some.inj (hfound.symm.trans hu)
    have hcount := congrArg (List.count '\x60') hsame
    rw [count_resolved backtick_notMem_prefixExpression (by decide),
      count_resolved backtick_notMem_prefixExpression (by decide),
      List.count_cons_self, List.count_append] at hcount
    omega
  have hname := ProcedureHeader.procedureHeader_of_schema hfirst.start hfirst.ends hschema
  obtain rfl := Option.some.inj (hfound.symm.trans hname)
  exact ⟨hschema, RoutineName.isClear_of_resolved hfirst.ends.name hr hsame⟩

/-- A definition has a statement, and it says what the definition says with the header of the site
exactly if the search sees where the header ends and there is no carriage return. -/
theorem created_iff (hfirst : IsFirstHeader (portable m p.sanitized) a h r) :
    ∃ statement, createProcedure? m p = some statement ∧
      (h.IsClear r → statement = withHeader p.name a r) ∧
      ((∀ q, resolved q statement = Text.replace prefixExpression q (withHeader p.name a r)) ↔
        h.IsClear r ∧ '\r' ∉ withHeader p.name a r) := by
  obtain ⟨r', hfound⟩ := ProcedureHeader.exists_procedureHeader hfirst.start hfirst.ends
  have hkept : h.IsClear r → r' = r := by
    intro hclear
    have hname := ProcedureHeader.procedureHeader_of_schema hfirst.start hfirst.ends hclear.schema
    rw [hclear.name.behind_eq] at hname
    exact Option.some.inj (hfound.symm.trans hname)
  refine ⟨_, createProcedure?_eq hfirst hfound, fun hclear => ?_, fun hsame => ?_, ?_⟩
  · rw [hkept hclear]
  · have hnil := hsame []
    have hreturn : '\r' ∉ withHeader p.name a r := by
      intro hin
      have hkept := mem_replace return_notMem_prefixExpression [] hin
      rw [← hnil] at hkept
      exact return_notMem_resolved List.not_mem_nil _ hkept
    have hr : '\r' ∉ r := fun hin => hreturn (by simp [withHeader, hin])
    obtain ⟨u, hu⟩ := withHeader_backtick p.name a
    rw [← resolved_eq_replace hreturn, hu, hu, resolved_backtick, resolved_backtick] at hnil
    have hbehind := (List.cons.inj (List.append_cancel_left hnil)).2
    exact ⟨isClear_of_resolved hfirst hfound hr hbehind, hreturn⟩
  · rintro ⟨hclear, hreturn⟩ q
    rw [hkept hclear]
    exact resolved_eq_replace hreturn q

/-! ## The statements that drop it -/

/-- The statements that drop a procedure and create it, where its header stands, are about the one
behind the prefix, on every site whose prefix can stand between backticks and unless a backtick
follows the header. -/
def SameProcedure (name : String) (a r : Text) (drop create again : Literal) : Prop :=
  ∀ q, '\x60' ∉ q → (resolved q r).head? ≠ some '\x60' →
    subject? dropProcedureVerb (drop.valueAt q) = some (q ++ resolved q name.toList) ∧
    (∃ u, create.valueAt q = resolved q a ++ u ∧
      subject? createProcedureVerb u = some (q ++ resolved q name.toList)) ∧
    subject? dropProcedureVerb (again.valueAt q) = some (q ++ resolved q name.toList)

theorem isVerbatim_createProcedureVerb : IsVerbatim createProcedureVerb :=
  isVerbatim_of_not_mem (by decide) (by decide)

theorem isVerbatim_dropProcedureVerb : IsVerbatim dropProcedureVerb :=
  isVerbatim_of_not_mem (by decide) (by decide)

theorem subject?_dropProcedure (name : String) {q : Text} (hq : '\x60' ∉ q) :
    subject? dropProcedureVerb (resolved q (dropProcedure name)) =
      some (q ++ resolved q name.toList) := by
  have hend := subject?_siteName isVerbatim_dropProcedureVerb name (r := []) hq nofun
  rw [List.append_nil] at hend
  exact hend

/-- The verb parts the statement from what stands before it. -/
theorem resolved_withHeader (name : String) (q a r : Text) : resolved q (withHeader name a r) =
    resolved q a ++ resolved q (createProcedureVerb ++ siteName name ++ r) := by
  obtain ⟨u, hu⟩ : ∃ u, createProcedureVerb ++ siteName name ++ r = 'C' :: u := ⟨_, rfl⟩
  have hout : 'C' ∉ prefixExpression := by
    rw [prefixExpression_eq]
    decide
  have hparts := resolved_append_cons hout (by decide) q
  have hnil : resolved q ('C' :: u) = 'C' :: resolved q u := hparts [] u
  unfold withHeader
  rw [hu, hparts, hnil]

theorem sameProcedure_withHeader (name : String) (a r : Text) :
    SameProcedure name a r (ranStatement (dropProcedure name))
      (ranStatement (withHeader name a r)) (ranStatement (dropProcedure name)) := by
  intro q hq hr
  have hdrop := subject?_dropProcedure name hq
  have hcreate := subject?_siteName isVerbatim_createProcedureVerb name hq hr
  simp only [ranStatement, valueAt_spliced]
  exact ⟨hdrop, ⟨_, resolved_withHeader name q a r, hcreate⟩, hdrop⟩

/-! ## The installer -/

/-- The statements of a procedure are part of the installer. -/
theorem procedureLines_infix (plan : Plan) (hp : p ∈ plan.manifest.storedProcedures) :
    procedureLines plan.manifest p <:+: plan.installMethod ∧
      (RemovalStep.procedure p.name).lines <:+: plan.uninstallMethod := by
  have hinstall : InstallStep.procedure p ∈ plan.installSteps := by
    simp [Plan.installSteps, hp]
  have hremoval : RemovalStep.procedure p.name ∈ plan.removalSteps := by
    simp only [Plan.removalSteps, List.mem_append, List.mem_map]
    exact Or.inl (Or.inl (Or.inr ⟨p, hp, rfl⟩))
  exact ⟨Plan.infix_installMethod hinstall, Plan.infix_uninstallMethod hremoval⟩

/-- An installer creates a procedure by its definition with nothing but the first header replaced,
and every other character kept, exactly if the search sees where that header ends and there is no
carriage return. It is then the procedure that the installer drops, before and in the end. -/
theorem procedure_created_iff {className? : Option String} {o : InstallerOptions}
    {c : CompiledInstaller} (hcompile : m.compile className? o = .ok c)
    (hp : p ∈ m.storedProcedures) (hfirst : IsFirstHeader (portable m p.sanitized) a h r) :
    ∃ plan before behind remark drop create again, m.plan className? o = .ok plan ∧
      c.installerClass.content = render
        (before ++ plan.installMethod ++ plan.populateMethod ++ plan.uninstallMethod ++ behind) ∧
      procedureLines m p <:+: plan.installMethod ∧
      (RemovalStep.procedure p.name).lines <:+: plan.uninstallMethod ∧
      scan .code (render (procedureLines m p)).toList = some [remark, drop, create] ∧
      scan .code (render (RemovalStep.procedure p.name).lines).toList = some [again] ∧
      ((∀ q, create.valueAt q = Text.replace prefixExpression q (withHeader p.name a r)) ↔
        h.IsClear r ∧ '\r' ∉ withHeader p.name a r) ∧
      (h.IsClear r → SameProcedure p.name a r drop create again) := by
  obtain ⟨plan, hplan, rfl⟩ := Manifest.compile_eq_ok_iff.1 hcompile
  obtain ⟨name, -, -, rfl⟩ := Manifest.plan_eq_ok_iff.1 hplan
  obtain ⟨before, behind, hlines⟩ := lines_split ⟨m, name, o⟩
  obtain ⟨hinstall, huninstall⟩ := procedureLines_infix ⟨m, name, o⟩ hp
  obtain ⟨statement, hstatement, hclear, hiff⟩ := created_iff hfirst
  have hscan := scan_of_block (block_procedureLines m p)
  rw [procedureLiterals, hstatement] at hscan
  refine ⟨⟨m, name, o⟩, before, behind, _, _, _, _, hplan, congrArg render hlines, hinstall,
    huninstall, hscan, scan_of_block (RemovalStep.block (.procedure p.name)), ?_, fun h => ?_⟩
  · simp only [creation, ranStatement, valueAt_spliced]
    exact hiff
  · rw [hclear h]
    exact sameProcedure_withHeader p.name a r

end Procedure

/-- A manifest with one procedure. -/
def oneProcedure (p : Procedure) : Manifest :=
  { Manifest.empty "shop" "wp_" .epoch with storedProcedures := [p] }

/-- The words in front of a name as servers write them. -/
def serverWords : HeaderWords where
  create := "CREATE".toList
  gap := [' ']
  procedure := "PROCEDURE".toList
  gap' := [' ']
  hcreate := by repeat constructor
  hgap := ⟨by decide, List.forall_mem_singleton.2 rfl⟩
  hprocedure := by repeat constructor
  hgap' := ⟨by decide, List.forall_mem_singleton.2 rfl⟩

/-- A name behind a schema between backticks, without blanks around the point. -/
def headerIn (schema name : Text) (hname : '\x60' ∉ name) : ProcedureHeader :=
  ⟨serverWords, some ⟨schema, [], [], nofun, nofun⟩, .quoted name hname⟩

def totalProcedure : Procedure :=
  ⟨"total", "wp_total", "crm.wp_total", [],
    "CREATE DEFINER=\x60root\x60@\x60localhost\x60 PROCEDURE \x60crm\x60.\x60wp_total\x60" ++
      "(IN a INT) BEGIN SELECT a, '$a' FROM \x60shop\x60.\x60wp_orders\x60; END", none⟩

/-- What stands behind the header of that procedure. -/
def totalBody : Text :=
  "(IN a INT) BEGIN SELECT a, '$a' FROM \x60\x7b$this->prefix\x7dorders\x60; END".toList

theorem prefixedTotal_backtick : '\x60' ∉ prefixExpression ++ "total".toList := by
  rw [prefixExpression_eq]
  decide

theorem totalProcedure_isFirstHeader :
    IsFirstHeader (portable (oneProcedure totalProcedure) totalProcedure.sanitized) []
      (headerIn "crm".toList (prefixExpression ++ "total".toList) prefixedTotal_backtick)
      totalBody where
  split := by decide +kernel
  start := rfl
  ends := ⟨show totalBody.head? ≠ some '\x60' by decide, nofun⟩
  first b c hbc hc := by
    rw [(List.append_eq_nil_iff.1 hbc.symm).2] at hc
    exact absurd rfl hc

/-- A procedure that a server reports in another schema comes out under its name on the site. -/
theorem totalProcedure_created : ∃ c,
    (oneProcedure totalProcedure).compile none .standard = .ok c ∧
    ∃ remark drop create again,
      scan .code (render (procedureLines (oneProcedure totalProcedure) totalProcedure)).toList =
        some [remark, drop, create] ∧
      scan .code (render (RemovalStep.procedure "total").lines).toList = some [again] ∧
      create.valueAt "my_".toList = ("CREATE PROCEDURE \x60my_total\x60(IN a INT) " ++
        "BEGIN SELECT a, '$a' FROM \x60my_orders\x60; END").toList ∧
      SameProcedure "total" [] totalBody drop create again := by
  have hok : (oneProcedure totalProcedure).compile none .standard =
      .ok (Plan.compiled ⟨oneProcedure totalProcedure, "MyPluginInstaller", .standard⟩) := rfl
  obtain ⟨plan, before, behind, remark, drop, create, again, -, -, -, -, hinstall, hremoval, hiff,
    hsame⟩ := procedure_created_iff hok List.mem_cons_self totalProcedure_isFirstHeader
  have hclear : (headerIn "crm".toList (prefixExpression ++ "total".toList)
      prefixedTotal_backtick).IsClear totalBody := by
    refine ⟨fun q hq => ?_, trivial⟩
    obtain rfl := Option.some.inj hq
    show '\x60' ∉ "crm".toList
    decide
  refine ⟨_, hok, remark, drop, create, again, hinstall, hremoval, ?_, hsame hclear⟩
  rw [hiff.2 ⟨hclear, by decide +kernel⟩]
  decide +kernel

def splitProcedure : Procedure :=
  { totalProcedure with
    definition := "CREATE PROCEDURE \x60a\x60\x60b\x60.\x60wp_total\x60() BEGIN SELECT 1; END" }

/-- A procedure whose schema has a backtick in its name is created under another name than it is
dropped under, with a part of the schema in the statement. -/
theorem splitProcedure_created : ∃ c,
    (oneProcedure splitProcedure).compile none .standard = .ok c ∧
    IsFirstHeader (portable (oneProcedure splitProcedure) splitProcedure.sanitized) []
      (headerIn "a\x60b".toList (prefixExpression ++ "total".toList) prefixedTotal_backtick)
      "() BEGIN SELECT 1; END".toList ∧
    ∃ remark drop create again,
      scan .code (render (procedureLines (oneProcedure splitProcedure) splitProcedure)).toList =
        some [remark, drop, create] ∧
      scan .code (render (RemovalStep.procedure "total").lines).toList = some [again] ∧
      create.valueAt "my_".toList =
        "CREATE PROCEDURE \x60my_total\x60\x60b\x60.\x60my_total\x60() BEGIN SELECT 1; END".toList ∧
      Text.replace prefixExpression "my_".toList
          (withHeader "total" [] "() BEGIN SELECT 1; END".toList) =
        "CREATE PROCEDURE \x60my_total\x60() BEGIN SELECT 1; END".toList ∧
      subject? dropProcedureVerb (drop.valueAt "my_".toList) = some "my_total".toList ∧
      subject? createProcedureVerb (create.valueAt "my_".toList) = some "my_total\x60b".toList := by
  refine ⟨_, rfl, ⟨by decide +kernel, rfl, ⟨?_, nofun⟩, ?_⟩, _, _, _, _,
    scan_of_block (block_procedureLines _ _), scan_of_block (RemovalStep.block _), ?_, ?_, ?_, ?_⟩
  · show "() BEGIN SELECT 1; END".toList.head? ≠ some '\x60'
    decide
  · intro b c hbc hc
    rw [(List.append_eq_nil_iff.1 hbc.symm).2] at hc
    exact absurd rfl hc
  · decide +kernel
  · decide +kernel
  · decide +kernel
  · decide +kernel

end SchemaInstaller
