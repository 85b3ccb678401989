import SchemaInstaller.Proofs.Installer.Targets
import SchemaInstaller.Proofs.Php.Values
import SchemaInstaller.Proofs.Sql.Quoting
import SchemaInstaller.Proofs.Sql.TablePrefix
import SchemaInstaller.Proofs.Sql.SimpleNames

/-!
# The names of views

A view is dropped under its name in the manifest behind the prefix of the site. It is created by its
definition, in which the prefix is looked for wherever it may stand, so that a name with a second
prefix in it comes out as another one. `sameView_iff` says exactly when the statements name the same
view on every site, and `secondPrefix_parts` that they may not.
-/

namespace SchemaInstaller

open Php Sql Statement Text

/-! ## Names behind verbs -/

/-- A statement in which a quoted name stands behind a verb. -/
def Names (verb name statement : Text) : Prop := verb ++ '\x60' :: name ++ ['\x60'] <+: statement

def createVerb : Text := "CREATE VIEW ".toList

def dropVerb : Text := "DROP VIEW IF EXISTS ".toList

theorem isVerbatim_createVerb : IsVerbatim createVerb := isVerbatim_of_not_mem (by decide) (by decide)

theorem isVerbatim_dropVerb : IsVerbatim dropVerb := isVerbatim_of_not_mem (by decide) (by decide)

/-- A text without backticks that ends no later than the first backtick of another. -/
theorem length_le_of_backtick {t u r : Text} (ht : '\x60' ∉ t)
    (h : t ++ ['\x60'] <+: u ++ '\x60' :: r) : t.length ≤ u.length := by
  have hpart := prefix_of_prefix_append_cons ht ((List.prefix_append t _).trans h)
  exact hpart.length_le

/-! ## Dropping -/

theorem resolved_dropView {name : String} (hname : '\x60' ∉ name.toList) (q : Text) :
    resolved q (dropView name) =
      dropVerb ++ '\x60' :: (q ++ resolved q name.toList ++ ['\x60']) := by
  have htext : dropView name =
      dropVerb ++ '\x60' :: (prefixExpression ++ name.toList ++ '\x60' :: []) := by
    unfold dropView siteName
    rw [escapeIdentifier_of_notMem hname]
    rfl
  rw [htext, resolved_backtick, resolved_backtick, resolved_prefixExpression,
    resolved_of_isVerbatim isVerbatim_dropVerb]
  rfl

/-- A view is dropped under its name behind the prefix, if the name comes out as it is. -/
theorem names_dropView {name : String} (hname : '\x60' ∉ name.toList)
    (hverbatim : IsVerbatim name.toList) (q : Text) :
    Names dropVerb (q ++ name.toList) (resolved q (dropView name)) := by
  rw [resolved_dropView hname, resolved_of_isVerbatim hverbatim]
  unfold Names
  rw [List.append_assoc]
  exact List.prefix_refl _

/-! ## Creating -/

variable {p : Text}

/-- Where the prefix of the site is empty, putting it into a text makes the text no longer, and
shorter if there is a prefix to be replaced. -/
theorem resolved_injectPrefix_length (hp : p ≠ []) (t : Text) :
    (resolved [] (injectPrefix p t)).length ≤ t.length ∧
      (HoldsPrefix p t → (resolved [] (injectPrefix p t)).length < t.length) := by
  have hsweep := sweep_substituteFrom (prefixRule_replaces hp) none t
  rw [injectPrefix_eq hp]
  unfold substitute
  generalize substituteFrom (prefixRule p) 0 none t = u at hsweep
  generalize (none : Option Char) = prev at hsweep
  induction hsweep with
  | nil => exact ⟨Nat.le_refl _, fun h => absurd h (not_holdsPrefix_nil hp)⟩
  | @keep prev c r u hnone _ ih =>
    have hcons := resolved_cons_length_le c u
    refine ⟨?_, fun hholds => ?_⟩
    · rw [List.length_cons]
      omega
    · have hlt := ih.2 (holdsPrefix_of_cons hnone hholds)
      rw [List.length_cons]
      omega
  | @change prev old new rest u hne hmatch _ ih =>
    obtain ⟨-, -, -, rfl⟩ := prefixRule_replaces hp _ _ _ _ hmatch
    have hpos := List.length_pos_iff.2 hne
    rw [resolved_prefixExpression, List.nil_append, List.length_append]
    exact ⟨by omega, fun _ => by omega⟩

/-- The statement that a definition becomes names the view behind the prefix on every site exactly if
neither the words in front of the name nor the rest of the name hold a prefix, and the rest comes out
as it is. -/
theorem names_create_iff (hp : p ≠ []) {n : Text} (hn : '\x60' ∉ n) (r : Text) :
    (∀ q, Names createVerb (q ++ n) (resolved q (injectPrefix p createVerb ++
        '\x60' :: (prefixExpression ++ injectPrefix p n ++ '\x60' :: r)))) ↔
      ¬HoldsPrefix p createVerb ∧ ¬HoldsPrefix p n ∧ IsVerbatim n := by
  constructor
  · intro h
    have hnames := h []
    rw [resolved_backtick, resolved_backtick, resolved_prefixExpression, List.nil_append,
      List.nil_append] at hnames
    unfold Names at hnames
    rw [List.append_assoc] at hnames
    have hverb : ¬HoldsPrefix p createVerb := by
      intro hholds
      have hlt := (resolved_injectPrefix_length hp createVerb).2 hholds
      have hstart : createVerb ++ ['\x60'] <+: createVerb ++ ('\x60' :: n ++ ['\x60']) :=
        (List.prefix_append_right_inj _).2 ⟨_, rfl⟩
      have hle := length_le_of_backtick (by decide) (hstart.trans hnames)
      omega
    rw [injectPrefix_of_not_holdsPrefix hp hverb, resolved_of_isVerbatim isVerbatim_createVerb,
      List.prefix_append_right_inj, List.cons_append, List.cons_prefix_cons] at hnames
    have hlen := length_le_of_backtick hn hnames.2
    have hname : ¬HoldsPrefix p n := by
      intro hholds
      have hlt := (resolved_injectPrefix_length hp n).2 hholds
      omega
    rw [injectPrefix_of_not_holdsPrefix hp hname] at hlen
    exact ⟨hverb, hname, (resolved_length n).2 hlen⟩
  · rintro ⟨hverb, hname, hverbatim⟩ q
    rw [injectPrefix_of_not_holdsPrefix hp hverb, injectPrefix_of_not_holdsPrefix hp hname,
      resolved_backtick, resolved_backtick, resolved_prefixExpression,
      resolved_of_isVerbatim isVerbatim_createVerb, resolved_of_isVerbatim hverbatim]
    exact ⟨resolved q r, by simp⟩

/-! ## The statements of a view -/

/-- A view with the definition that a server shows: a header, the source name between backticks, and
a body. The source name is the name behind the prefix. -/
structure IsShown (m : Manifest) (v : View) (h : ViewHeader) (body : Text) : Prop where
  source : v.sourceName.toList = m.defaultPrefix.toList ++ v.name.toList
  definition : v.definition.toList = viewDefinition h v.sourceName.toList (' ' :: body)
  backtick : '\x60' ∉ v.sourceName.toList

/-- A view with nothing in its header and its name that is taken for something else: no comment in
the header, nothing to rewrite in the name, and no token for the prefix in place of the prefix. -/
structure IsClear (m : Manifest) (v : View) (h : ViewHeader) : Prop where
  comment : ¬['/', '*', '!'] <:+: h.text
  name : Undisturbed m.database.toList v.sourceName.toList
  token : ∀ r, prefixToken v.sourceName.toList = some r → r = v.name.toList

section View

variable {m : Manifest} {v : View} {h : ViewHeader} {body : Text}

/-- The definition of a view becomes a statement that creates it. -/
theorem createView?_eq (hp : m.defaultPrefix.toList ≠ []) (hshown : IsShown m v h body)
    (hclear : IsClear m v h) :
    ∃ r, createView? m v = some (injectPrefix m.defaultPrefix.toList createVerb ++ '\x60' ::
      (prefixExpression ++ injectPrefix m.defaultPrefix.toList v.name.toList ++ '\x60' :: r)) := by
  obtain ⟨tail, hsanitized⟩ := sanitizeView_definition hclear.comment hclear.name (' ' :: body)
  obtain ⟨tail', hstripped⟩ := stripSchema_definition hclear.name tail
  have hbacktick := hshown.backtick
  have htoken := hclear.token
  rw [← hshown.definition] at hsanitized
  rw [hshown.source] at hstripped hbacktick htoken
  have htext : viewDefinition .plain (m.defaultPrefix.toList ++ v.name.toList) tail' =
      createVerb ++ '\x60' :: (m.defaultPrefix.toList ++ v.name.toList ++
        '\x60' :: ([' ', 'A', 'S'] ++ tail')) := by
    unfold viewDefinition namePart
    rw [List.append_assoc, List.append_assoc, List.append_assoc]
    rfl
  have hp' : '\x60' ∉ m.defaultPrefix.toList := fun hin => hbacktick (List.mem_append_left _ hin)
  have hportable : portable m v.sanitized =
      injectPrefix m.defaultPrefix.toList createVerb ++ '\x60' ::
        (prefixExpression ++ injectPrefix m.defaultPrefix.toList v.name.toList ++
          '\x60' :: injectPrefix m.defaultPrefix.toList ([' ', 'A', 'S'] ++ tail')) := by
    unfold portable View.sanitized
    rw [hsanitized, hshown.source, hstripped, htext, injectPrefix_backtick hp hp',
      injectPrefix_backtick hp hp', injectPrefix_append hp htoken]
  refine ⟨injectPrefix m.defaultPrefix.toList ([' ', 'A', 'S'] ++ tail'), ?_⟩
  unfold createView?
  rw [hportable]
  refine if_neg ?_
  simp [isBlankOnly, isBlank]

/-- The statements that drop a view, create it and drop it again name one view on every site. -/
def SameView (name : Text) (drop create again : Literal) : Prop :=
  ∀ q, Names dropVerb (q ++ name) (drop.valueAt q) ∧ Names createVerb (q ++ name) (create.valueAt q) ∧
    Names dropVerb (q ++ name) (again.valueAt q)

/-- The statements of a view are part of the installer. -/
theorem viewLines_infix {p : Plan} (hv : v ∈ p.manifest.views) :
    viewLines p.manifest v <:+: p.installMethod ∧
      (RemovalStep.view v.name).lines <:+: p.uninstallMethod := by
  have hinstall : InstallStep.view v ∈ p.installSteps := by
    simp [Plan.installSteps, hv]
  have hremoval : RemovalStep.view v.name ∈ p.removalSteps := by
    simp only [Plan.removalSteps, List.mem_append, List.mem_map]
    exact Or.inl (Or.inr ⟨v, hv, rfl⟩)
  exact ⟨Plan.infix_installMethod hinstall, Plan.infix_uninstallMethod hremoval⟩

/-- An installer drops, creates and removes a view under one name exactly if neither the words in
front of the name nor the name hold the prefix or its token, and the name comes out as it is. -/
theorem sameView_iff {className? : Option String} {o : InstallerOptions} {c : CompiledInstaller}
    (hcompile : m.compile className? o = .ok c) (hv : v ∈ m.views) (hshown : IsShown m v h body)
    (hclear : IsClear m v h) :
    ∃ p before behind remark drop create again, m.plan className? o = .ok p ∧
      c.installerClass.content =
        render (before ++ p.installMethod ++ p.populateMethod ++ p.uninstallMethod ++ behind) ∧
      viewLines m v <:+: p.installMethod ∧
      (RemovalStep.view v.name).lines <:+: p.uninstallMethod ∧
      scan .code (render (viewLines m v)).toList = some [remark, drop, create] ∧
      scan .code (render (RemovalStep.view v.name).lines).toList = some [again] ∧
      (SameView v.name.toList drop create again ↔
        ¬HoldsPrefix m.defaultPrefix.toList createVerb ∧
          ¬HoldsPrefix m.defaultPrefix.toList v.name.toList ∧ IsVerbatim v.name.toList) := by
  obtain ⟨p, hplan, rfl⟩ := Manifest.compile_eq_ok_iff.1 hcompile
  obtain ⟨name, -, hempty, rfl⟩ := Manifest.plan_eq_ok_iff.1 hplan
  obtain ⟨before, behind, hlines⟩ := lines_split ⟨m, name, o⟩
  obtain ⟨hinstall, huninstall⟩ := viewLines_infix (p := ⟨m, name, o⟩) hv
  have hp : m.defaultPrefix.toList ≠ [] := by
    intro hnil
    rw [String.toList_eq_nil_iff.1 hnil] at hempty
    cases hempty
  obtain ⟨r, hcreate⟩ := createView?_eq hp hshown hclear
  have hbacktick : '\x60' ∉ v.name.toList := fun hin =>
    hshown.backtick (hshown.source ▸ List.mem_append_right _ hin)
  have hscan := scan_of_block (block_viewLines m v)
  rw [viewLiterals, hcreate] at hscan
  refine ⟨⟨m, name, o⟩, before, behind, _, _, _, _, hplan, congrArg render hlines, hinstall,
    huninstall, hscan, scan_of_block (RemovalStep.block (.view v.name)), ?_⟩
  have hiff := names_create_iff hp hbacktick r
  simp only [SameView, creation, ranStatement, valueAt_spliced]
  constructor
  · exact fun hsame => hiff.1 fun q => (hsame q).2.1
  · intro hholds q
    have hdrop := names_dropView hbacktick hholds.2.2 q
    exact ⟨hdrop, hiff.2 hholds q, hdrop⟩

end View

/-- A manifest with one view. -/
def oneView (v : View) : Manifest := { Manifest.empty "shop" "wp_" .epoch with views := [v] }

/-- The header that a server shows for a view of the administrator. -/
def serverHeader : ViewHeader :=
  ⟨some .undefined, some (.account (.quoted '\x60' "root".toList (by decide) (by decide))
    (.quoted '\x60' "localhost".toList (by decide) (by decide)) (by decide)), some .definer⟩

def ordersView : View :=
  ⟨"orders_v", "wp_orders_v", "shop.wp_orders_v",
    "CREATE ALGORITHM=UNDEFINED DEFINER=`root`@`localhost` SQL SECURITY DEFINER VIEW " ++
      "`wp_orders_v` AS select 1", none⟩

theorem ordersView_isShown :
    IsShown (oneView ordersView) ordersView serverHeader "select 1".toList where
  source := rfl
  definition := by decide +kernel
  backtick := by decide

theorem ordersView_isClear : IsClear (oneView ordersView) ordersView serverHeader where
  comment := fun h => absurd (h.subset List.mem_cons_self) (by decide)
  name := undisturbed_of_simple (by decide) (by decide)
  token := by
    have hnone : prefixToken ordersView.sourceName.toList = none := by decide
    intro r hr
    rw [hnone] at hr
    cases hr

/-- A view of the plugin's own keeps its name. -/
theorem ordersView_sameView : ∃ c, (oneView ordersView).compile none .standard = .ok c ∧
    ∃ remark drop create again,
      scan .code (render (viewLines (oneView ordersView) ordersView)).toList =
        some [remark, drop, create] ∧
      scan .code (render (RemovalStep.view "orders_v").lines).toList = some [again] ∧
      SameView "orders_v".toList drop create again := by
  have hok : (oneView ordersView).compile none .standard =
      .ok (Plan.compiled ⟨oneView ordersView, "MyPluginInstaller", .standard⟩) := rfl
  obtain ⟨p, before, behind, remark, drop, create, again, -, -, -, -, hinstall, hremoval, hiff⟩ :=
    sameView_iff hok List.mem_cons_self ordersView_isShown ordersView_isClear
  refine ⟨_, hok, remark, drop, create, again, hinstall, hremoval, hiff.2 ⟨?_, ?_, ?_⟩⟩
  · exact not_holdsPrefix_of_tails (by decide +kernel) (by decide +kernel)
  · exact not_holdsPrefix_of_tails (by decide +kernel) (by decide +kernel)
  · exact isVerbatim_of_not_mem (by decide) (by decide)

def reportView : View :=
  ⟨"report_wp_orders", "wp_report_wp_orders", "shop.wp_report_wp_orders",
    "CREATE VIEW `wp_report_wp_orders` AS select 1", none⟩

/-- A view whose name holds the prefix a second time is created under another name than it is dropped
under. -/
theorem secondPrefix_parts : ∃ c, (oneView reportView).compile none .standard = .ok c ∧
    IsShown (oneView reportView) reportView .plain "select 1".toList ∧
    ∃ remark drop create again,
      scan .code (render (viewLines (oneView reportView) reportView)).toList =
        some [remark, drop, create] ∧
      scan .code (render (RemovalStep.view "report_wp_orders").lines).toList = some [again] ∧
      Names dropVerb "my_report_wp_orders".toList (drop.valueAt "my_".toList) ∧
      Names createVerb "my_report_my_orders".toList (create.valueAt "my_".toList) ∧
      Names dropVerb "my_report_wp_orders".toList (again.valueAt "my_".toList) ∧
      ¬SameView "report_wp_orders".toList drop create again := by
  have hshown : IsShown (oneView reportView) reportView .plain "select 1".toList :=
    ⟨rfl, by decide +kernel, by decide⟩
  refine ⟨_, rfl, hshown, _, _, _, _, scan_of_block (block_viewLines _ _),
    scan_of_block (RemovalStep.block _), ?_, ?_, ?_, fun hsame => ?_⟩
  · unfold Names
    decide +kernel
  · unfold Names
    decide +kernel
  · unfold Names
    decide +kernel
  · have hcreate := (hsame "my_".toList).2.1
    revert hcreate
    unfold Names
    decide +kernel

end SchemaInstaller
