import SchemaInstaller.Proofs.Installer.Prefix
import SchemaInstaller.Proofs.Installer.Reporting
import SchemaInstaller.Proofs.Sql.Lexing
import SchemaInstaller.Proofs.Sql.NormalForm
import SchemaInstaller.Proofs.Sql.TablePrefix

/-!
# Bodies of triggers as blocks

The body of a trigger that does not start with `BEGIN` is put between `BEGIN` and `END`. Whether the
`END` ends the block depends on where a server is when it comes to it: in code, or in a comment or a
string that the body has begun. What stands in front of the body leads from code to code, and so
`trigger_live_iff` says exactly when the `END` is in code: when the body closes its strings and its
comments between slashes and stars, and does not end in a comment that goes on to the end of its
line.
-/

namespace SchemaInstaller

open Php Sql Statement Text

/-! ## Statements as a server reads them -/

/-- A prefix that a site can have: letters, digits and underscores, one at least. -/
def IsSitePrefix (q : Text) : Prop := q ≠ [] ∧ ∀ c ∈ q, c.isAlphanum = true ∨ c = '_'

theorem settles_of_isSitePrefix {q : Text} (hq : IsSitePrefix q) : Settles q := by
  refine settles_of_isOrdinary hq.1 fun c hc => ?_
  rcases hq.2 c hc with h | rfl
  · exact isOrdinary_of_isAlphanum h
  · rfl

/-- A text without its carriage returns. -/
def written (t : Text) : Text := t.flatMap withoutReturn

theorem written_append (t u : Text) : written (t ++ u) = written t ++ written u :=
  List.flatMap_append

theorem written_cons (c : Char) (t : Text) : written (c :: t) = withoutReturn c ++ written t :=
  List.flatMap_cons

theorem written_of_notMem {t : Text} (h : '\r' ∉ t) : written t = t := flatMap_withoutReturn h

/-- A statement that arrives reads as the text does that the installer holds. -/
theorem lexed_sent {q : Text} (hq : IsSitePrefix q) (l : Lexical) (t : Text) :
    lexed l (sent q t) = lexed l (written t) := by
  rw [sent_eq, lexed_substitute prefixToken_of not_isToken_nil (fun w => settles_of_isToken)
    (settles_of_isSitePrefix hq)]
  induction t using expression_induction generalizing l with
  | nil => rfl
  | expression r ih =>
    rw [resolved_prefixExpression, written_append,
      written_of_notMem return_notMem_prefixExpression, lexed_append, lexed_append,
      settles_of_isSitePrefix hq, settles_prefixExpression, ih]
  | cons c r hc ih =>
    rw [resolved_cons q hc, written_cons, lexed_append, lexed_append, ih]

/-- A name of the site leads from code to code. -/
theorem lexed_siteName (name : String) : lexed .code (written (siteName name)) = .code := by
  have hreturn : '\r' ∉ '\x60' :: prefixExpression :=
    List.not_mem_cons_of_ne_of_not_mem (by decide) return_notMem_prefixExpression
  have hname : written (escapeIdentifier name.toList) = escapeIdentifier (written name.toList) := by
    unfold written escapeIdentifier replaceChar
    rw [List.flatMap_assoc, List.flatMap_assoc]
    refine List.flatMap_congr fun c _ => ?_
    by_cases hc : c = '\x60'
    · rw [hc]
      rfl
    · by_cases hcr : c = '\r'
      · rw [hcr]
        rfl
      · simp [withoutReturn, hc, hcr]
  have hquoted : written (siteName name) =
      quoteIdentifier (prefixExpression ++ written name.toList) := by
    unfold siteName quoteIdentifier
    rw [written_append, written_append, written_of_notMem hreturn, hname, escapeIdentifier_append,
      escapeIdentifier_of_notMem backtick_notMem_prefixExpression, List.cons_append,
      List.cons_append]
    rfl
  rw [hquoted]
  exact lexed_quoteIdentifier _

/-! ## The statement of a trigger -/

/-- What stands in front of the body of a trigger. -/
def triggerHead (t : Trigger) (installedAs : String) : Text :=
  let (timing, event) := t.timingAndEvent
  "CREATE TRIGGER ".toList ++ (siteName installedAs ++ (' ' :: timing.keyword.toList
    ++ (' ' :: event.keyword.toList ++ (" ON ".toList ++ (siteName t.table
    ++ " FOR EACH ROW".toList)))))

/-- The body of a trigger as it is put into a statement. -/
def triggerBody (m : Manifest) (t : Trigger) : Text := Text.trim (portable m t.sanitized)

/-- What stands between the body of a trigger and the end of its block. -/
def separator (body : Text) : Text := if body.getLast? == some ';' then [' '] else [';', ' ']

/-- Own words lead from code to code. -/
theorem lexed_triggerHead (t : Trigger) (installedAs : String) :
    lexed .code (written (triggerHead t installedAs)) = .code := by
  have htiming : ∀ k : TriggerTiming, lexed .code (written (' ' :: k.keyword.toList)) = .code := by
    intro k
    cases k <;> decide +kernel
  have hevent : ∀ k : TriggerEvent, lexed .code (written (' ' :: k.keyword.toList)) = .code := by
    intro k
    cases k <;> decide +kernel
  have hverb : lexed .code (written "CREATE TRIGGER ".toList) = .code := by decide +kernel
  have hon : lexed .code (written " ON ".toList) = .code := by decide +kernel
  have heach : lexed .code (written " FOR EACH ROW".toList) = .code := by decide +kernel
  unfold triggerHead
  simp only [written_append, lexed_append, hverb, hon, heach, lexed_siteName, htiming, hevent]

variable {m : Manifest} {t : Trigger}

theorem createTrigger_eq (hbegin : startsWithBegin (triggerBody m t) = false)
    (installedAs : String) : createTrigger m t installedAs = triggerHead t installedAs ++
      ' ' :: ("BEGIN".toList ++ ' ' :: (triggerBody m t ++ (separator (triggerBody m t)
        ++ "END".toList))) := by
  have hstatement : createTrigger m t installedAs =
      triggerHead t installedAs ++ ' ' :: asBlock (triggerBody m t) := by
    unfold createTrigger triggerHead triggerBody
    simp
  rw [hstatement]
  unfold asBlock separator
  rw [if_neg (by simp [hbegin])]
  split <;> simp

theorem isApart_space : IsApart ' ' :=
  isApart_of_notMem (by rw [prefixExpression_eq]; decide) (by decide)

theorem isApart_semicolon : IsApart ';' :=
  isApart_of_notMem (by rw [prefixExpression_eq]; decide) (by decide)

/-- The block around a body arrives as it is. -/
theorem sent_createTrigger (hbegin : startsWithBegin (triggerBody m t) = false)
    (installedAs : String) (q : Text) : sent q (createTrigger m t installedAs) =
      sent q (triggerHead t installedAs) ++ ' ' :: ("BEGIN".toList ++
        ' ' :: (sent q (triggerBody m t) ++ (separator (triggerBody m t) ++ "END".toList))) := by
  have hword : ∀ w : Text, '\x7b' ∉ w → '\r' ∉ w → sent q w = w := fun w hbrace hreturn =>
    sent_of_lasts (lasts_of_not_mem hbrace hreturn) q
  have hend : sent q (triggerBody m t ++ (separator (triggerBody m t) ++ "END".toList)) =
      sent q (triggerBody m t) ++ (separator (triggerBody m t) ++ "END".toList) := by
    have hspace := sent_append_cons isApart_space q
    unfold separator
    split
    · rw [List.singleton_append, hspace, hword "END".toList (by decide) (by decide)]
    · have hnil := hspace [] "END".toList
      rw [List.nil_append] at hnil
      rw [List.cons_append, List.singleton_append, sent_append_cons isApart_semicolon, hnil,
        hword [] (by decide) (by decide), hword "END".toList (by decide) (by decide)]
      rfl
  rw [createTrigger_eq hbegin, sent_append_cons isApart_space, sent_append_cons isApart_space, hend,
    hword "BEGIN".toList (by decide) (by decide)]

/-! ## Definitions and bodies -/

/-- The prefix and the tokens for it complete the state, as the expression does. -/
theorem prefixRule_settles {p : Text} (hp : IsSitePrefix p) :
    (prefixRule p).Replaces fun old new => Settles old ∧ '\r' ∉ old ∧ new = prefixExpression := by
  intro prev t new rest h
  obtain ⟨r, hr, heq⟩ := Option.map_eq_some_iff.1 h
  cases heq
  rcases Option.or_eq_some_iff.1 hr with hr | ⟨-, hr⟩
  · obtain ⟨w, hw, rfl⟩ := (prefixToken_of t _).1 hr
    refine ⟨w, fun hnil => not_isToken_nil (hnil ▸ hw), rfl, settles_of_isToken hw, ?_, rfl⟩
    intro hin
    have hlower : '\r'.toLower ∈ ['\x7b', 'w', 'p', '_', '\x7d'] := hw ▸ List.mem_map_of_mem hin
    revert hlower
    decide
  · have ht := List.isPrefixOf?_eq_some_iff_append_eq.1 hr
    refine ⟨p, hp.1, ht.symm, settles_of_isSitePrefix hp, fun hin => ?_, rfl⟩
    rcases hp.2 _ hin with h | h <;> cases h

/-- A definition reads as it did when its prefixes have given way to expressions. -/
theorem lexed_injectPrefix {p : Text} (hp : IsSitePrefix p) (l : Lexical) (d : Text) :
    lexed l (written (injectPrefix p d)) = lexed l (written d) := by
  have hrule := prefixRule_settles hp
  have hsweep := sweep_substituteFrom hrule none d
  rw [injectPrefix_eq hp.1]
  unfold substitute
  generalize substituteFrom (prefixRule p) 0 none d = u at hsweep
  generalize (none : Option Char) = prev at hsweep
  induction hsweep generalizing l with
  | nil => rfl
  | keep _ _ ih => rw [written_cons, written_cons, lexed_append, lexed_append, ih]
  | change _ hmatch _ ih =>
    obtain ⟨w, -, hw, hsettles, hreturn, rfl⟩ := hrule _ _ _ _ hmatch
    obtain rfl := List.append_cancel_right hw
    rw [written_append, written_append, written_of_notMem return_notMem_prefixExpression,
      written_of_notMem hreturn, lexed_append, lexed_append, hsettles, settles_prefixExpression, ih]

theorem trim_of_ends {t : Text} (hfront : ∀ c, t.head? = some c → isBlank c = false)
    (hback : ∀ c, t.getLast? = some c → isBlank c = false) : t.trim = t := by
  have hstart : t.trimStart = t := by
    cases t with
    | nil => rfl
    | cons c r => exact Scan.skipBlanks_of_not_isBlank (hfront c rfl) r
  unfold trim
  rw [hstart]
  cases hlast : t.getLast? with
  | none =>
    rw [List.getLast?_eq_none_iff.1 hlast]
    rfl
  | some c =>
    have hend := trimEnd_append hlast (hback c hlast) []
    rw [List.append_nil] at hend
    exact hend.trans (List.append_nil t)

/-- An expression in the place of a prefix brings no blank to the end of a text that stands behind
another character. -/
theorem isBlank_getLast_sweep {p : Text} (hp : p ≠ []) {prev : Option Char} {t u : Text}
    (h : Sweep (prefixRule p) prev t u) (last : Option Char)
    (ht : ∀ c, t.getLast?.or last = some c → isBlank c = false) :
    ∀ c, u.getLast?.or last = some c → isBlank c = false := by
  induction h generalizing last with
  | nil => exact ht
  | keep _ _ ih =>
    rw [getLast?_cons_or] at ht ⊢
    exact ih _ ht
  | @change prev old new rest u _ hmatch _ ih =>
    have hlast : prefixExpression.getLast? = some '\x7d' := by
      rw [prefixExpression_eq]
      rfl
    obtain ⟨-, -, -, rfl⟩ := prefixRule_replaces hp _ _ _ _ hmatch
    rw [getLast?_append_or] at ht ⊢
    rw [hlast, Option.some_or]
    refine ih _ fun c hc => ?_
    cases hrest : rest.getLast? with
    | none =>
      rw [hrest] at hc
      cases hc
      rfl
    | some d =>
      rw [hrest] at hc ht
      exact ht c hc

/-- Nor does it bring one to either end of a text. -/
theorem trim_injectPrefix {p d : Text} (hp : p ≠ [])
    (hfront : ∀ c, d.head? = some c → isBlank c = false)
    (hback : ∀ c, d.getLast? = some c → isBlank c = false) :
    (injectPrefix p d).trim = injectPrefix p d := by
  have hsweep := sweep_substituteFrom (prefixRule_replaces hp) none d
  have hhead : ∀ u : Text, (prefixExpression ++ u).head? = some '\x7b' := by
    intro u
    rw [prefixExpression_eq]
    rfl
  rw [injectPrefix_eq hp]
  unfold substitute
  generalize substituteFrom (prefixRule p) 0 none d = u at hsweep
  refine trim_of_ends ?_ fun c hc => ?_
  · generalize (none : Option Char) = prev at hsweep
    cases hsweep with
    | nil => exact nofun
    | keep _ _ => exact hfront
    | change _ hmatch _ =>
      obtain ⟨-, -, -, rfl⟩ := prefixRule_replaces hp _ _ _ _ hmatch
      intro c hc
      rw [hhead] at hc
      cases hc
      rfl
  · refine isBlank_getLast_sweep hp hsweep none (fun d hd => ?_) c ?_
    · rw [Option.or_none] at hd
      exact hback d hd
    · rw [Option.or_none]
      exact hc

/-- Where nothing stands in front of names to be taken out, the body of a trigger reads as its
definition does. -/
theorem lexed_triggerBody (hblank : t.sanitized.isBlankOnly = false)
    (hsite : IsSitePrefix m.defaultPrefix.toList)
    (hschema : stripSchema m.database.toList t.sanitized = t.sanitized) (l : Lexical) :
    lexed l (written (triggerBody m t)) = lexed l (written t.sanitized) := by
  have hdefinition : Text.isBlankOnly t.definition.toList = false := by
    rw [← Bool.not_eq_true]
    intro hdefinition
    have hsame : t.sanitized = t.definition.toList := if_pos hdefinition
    rw [hsame, hdefinition] at hblank
    cases hblank
  have hclean : Clean t.sanitized := (Sanitizer.normal_sanitize .routine hdefinition).1
  unfold triggerBody portable
  rw [hschema, trim_injectPrefix hsite.1 hclean.front hclean.back, lexed_injectPrefix hsite]

/-! ## The end of the block -/

/-- What stands between a body and `END` completes the state. -/
theorem lexed_separator (l : Lexical) (body : Text) :
    lexed (lexed l (written body)) (separator body) = (lexed l (written body)).settled := by
  have hsemicolon : ∀ s : Lexical, s.step ';' = s.settled := Lexical.step_of_isOrdinary rfl
  have hspace : ∀ s : Lexical, s.settled.step ' ' = s.settled := by
    intro s
    cases s with
    | quoted q => cases q <;> rfl
    | escaped q => cases q <;> rfl
    | _ => rfl
  unfold separator
  split
  · rename_i hlast
    obtain ⟨u, rfl⟩ := List.getLast?_eq_some_iff.1 (eq_of_beq hlast)
    have hwritten : written (u ++ [';']) = written u ++ [';'] := by
      rw [written_append]
      rfl
    rw [hwritten, lexed_append, lexed_cons]
    show (Lexical.step _ ';').step ' ' = (Lexical.step _ ';').settled
    rw [hsemicolon, hspace, Lexical.settled_settled]
  · show (Lexical.step _ ';').step ' ' = _
    rw [hsemicolon, hspace]

/-- A statement that is one block around a body, in which the block starts in code. -/
structure Wraps (body statement head close : Text) : Prop where
  statement : statement = head ++ ("BEGIN ".toList ++ (body ++ (close ++ "END".toList)))
  close : close = [' '] ∨ close = [';', ' ']
  head : lexed .code head = .code

/-- Whether a server comes to the `END` of a block in code. -/
def EndIsLive (body head close : Text) : Prop :=
  lexed .code (head ++ ("BEGIN ".toList ++ (body ++ close))) = .code

theorem createTrigger_wraps (hbegin : startsWithBegin (triggerBody m t) = false)
    (installedAs : String) {q : Text} (hq : IsSitePrefix q) : ∃ head close,
      Wraps (sent q (triggerBody m t)) (sent q (createTrigger m t installedAs)) head close ∧
      (EndIsLive (sent q (triggerBody m t)) head close ↔
        (lexed .code (written (triggerBody m t))).IsClosed ∧
          lexed .code (written (triggerBody m t)) ≠ .lineComment) := by
  have hbeginWord : lexed .code "BEGIN ".toList = .code := by decide +kernel
  have hhead : lexed .code (sent q (triggerHead t installedAs) ++ [' ']) = .code := by
    rw [lexed_append, lexed_sent hq, lexed_triggerHead]
    rfl
  refine ⟨_, separator (triggerBody m t), ⟨?_, ?_, hhead⟩, ?_⟩
  · rw [sent_createTrigger hbegin]
    simp
  · unfold separator
    split
    · exact Or.inl rfl
    · exact Or.inr rfl
  · unfold EndIsLive
    rw [lexed_append, hhead, lexed_append, hbeginWord, lexed_append, lexed_sent hq,
      lexed_separator, Lexical.settled_eq_code_iff]

/-! ## The installer -/

/-- The statements of a trigger are part of the installer. -/
theorem triggerLines_infix (plan : Plan) {installedAs : String}
    (ht : (t, installedAs) ∈ plan.triggers) :
    triggerLines plan.manifest t installedAs <:+: plan.installMethod := by
  have hinstall : InstallStep.trigger t installedAs ∈ plan.installSteps := by
    simp only [Plan.installSteps, List.mem_append, List.mem_map]
    exact Or.inr ⟨(t, installedAs), ht, rfl⟩
  exact Plan.infix_installMethod hinstall

/-- An installer puts the body of a trigger that does not start with `BEGIN` between `BEGIN` and
`END`. On every site a server takes the `END` for code exactly if the body closes its strings and
its comments between slashes and stars and does not end in a comment up to the end of a line. The
definition says whether it does, unless a schema in front of names is taken out of it. -/
theorem trigger_live_iff {className? : Option String} {o : InstallerOptions}
    {c : CompiledInstaller} (hcompile : m.compile className? o = .ok c) :
    ∃ plan before behind, m.plan className? o = .ok plan ∧
      c.installerClass.content = render
        (before ++ plan.installMethod ++ plan.populateMethod ++ plan.uninstallMethod ++ behind) ∧
      ∀ t installedAs, (t, installedAs) ∈ plan.triggers →
        triggerLines m t installedAs <:+: plan.installMethod ∧
        ∃ remark drop create,
          scan .code (render (triggerLines m t installedAs)).toList = some [remark, drop, create] ∧
          (startsWithBegin (triggerBody m t) = false → ∀ q, IsSitePrefix q → ∃ head close,
            Wraps (sent q (triggerBody m t)) (applyPrefix q (create.valueAt q)) head close ∧
            (EndIsLive (sent q (triggerBody m t)) head close ↔
              (lexed .code (written (triggerBody m t))).IsClosed ∧
                lexed .code (written (triggerBody m t)) ≠ .lineComment)) ∧
          (t.sanitized.isBlankOnly = false → IsSitePrefix m.defaultPrefix.toList →
            stripSchema m.database.toList t.sanitized = t.sanitized →
            lexed .code (written (triggerBody m t)) = lexed .code (written t.sanitized)) := by
  obtain ⟨plan, hplan, rfl⟩ := Manifest.compile_eq_ok_iff.1 hcompile
  obtain ⟨name, -, -, rfl⟩ := Manifest.plan_eq_ok_iff.1 hplan
  obtain ⟨before, behind, hlines⟩ := lines_split ⟨m, name, o⟩
  refine ⟨⟨m, name, o⟩, before, behind, hplan, congrArg render hlines, ?_⟩
  intro t installedAs ht
  have hscan := scan_of_block (block_triggerLines m t installedAs)
  rw [triggerLiterals] at hscan
  have hinstall := triggerLines_infix ⟨m, name, o⟩ ht
  refine ⟨hinstall, _, _, _, hscan, fun hbegin q hq => ?_, fun hblank hsite hschema =>
    lexed_triggerBody hblank hsite hschema .code⟩
  have harrives : applyPrefix q ((ranStatement (createTrigger m t installedAs)).valueAt q) =
      sent q (createTrigger m t installedAs) := by
    rw [ranStatement, valueAt_spliced, sent]
  rw [harrives]
  exact createTrigger_wraps hbegin installedAs hq

/-- A trigger with a body. -/
def orderTrigger (definition : String) : Trigger :=
  ⟨"orders_bi", "wp_orders_bi", "shop.wp_orders_bi", "BEFORE INSERT", "orders", definition, none⟩

/-- A manifest with one trigger. -/
def oneTrigger (t : Trigger) : Manifest :=
  { Manifest.empty "shop" "wp_" .epoch with triggers := [t] }

theorem isSitePrefix_my : IsSitePrefix "my_".toList := by
  refine ⟨by decide, fun c hc => ?_⟩
  have hall := List.all_eq_true.1 (show "my_".toList.all (fun c => c.isAlphanum || c == '_') = true
    by decide) c hc
  simpa using hall

def notedTrigger : Trigger :=
  orderTrigger "SET NEW.total = 1; # net\nSET NEW.note = 'a -- b'"

/-- A comment in the middle of a body, and one in a string, leave the end of the block alone. -/
theorem notedTrigger_live : ∃ c, (oneTrigger notedTrigger).compile none .standard = .ok c ∧
    ∃ remark drop create,
      scan .code (render (triggerLines (oneTrigger notedTrigger) notedTrigger "orders_bi")).toList =
        some [remark, drop, create] ∧
      ∃ head close,
        Wraps "SET NEW.total = 1; # net\nSET NEW.note = 'a -- b'".toList
          (applyPrefix "my_".toList (create.valueAt "my_".toList)) head close ∧
        EndIsLive "SET NEW.total = 1; # net\nSET NEW.note = 'a -- b'".toList head close := by
  have hok : (oneTrigger notedTrigger).compile none .standard =
      .ok (Plan.compiled ⟨oneTrigger notedTrigger, "MyPluginInstaller", .standard⟩) := rfl
  obtain ⟨plan, before, behind, hplan, -, htriggers⟩ := trigger_live_iff hok
  have hp : plan = ⟨oneTrigger notedTrigger, "MyPluginInstaller", .standard⟩ :=
    (Except.ok.inj hplan).symm
  have hmem : (notedTrigger, "orders_bi") ∈ plan.triggers := by
    rw [hp]
    decide +kernel
  obtain ⟨-, remark, drop, create, hscan, hlive, -⟩ := htriggers notedTrigger "orders_bi" hmem
  obtain ⟨head, close, hwraps, hiff⟩ := hlive (by decide +kernel) "my_".toList isSitePrefix_my
  have hbody : sent "my_".toList (triggerBody (oneTrigger notedTrigger) notedTrigger) =
      "SET NEW.total = 1; # net\nSET NEW.note = 'a -- b'".toList := by
    unfold sent applyPrefix
    rw [ClassFile.searched_eq]
    decide +kernel
  rw [hbody] at hwraps hiff
  exact ⟨_, hok, remark, drop, create, hscan, head, close, hwraps,
    hiff.2 ⟨by decide +kernel, by decide +kernel⟩⟩

def remarkedTrigger : Trigger := orderTrigger "SET NEW.total = 1 -- done"

/-- A comment at the end of a body takes the end of the block with it. -/
theorem remarkedTrigger_dead : ∃ c,
    (oneTrigger remarkedTrigger).compile none .standard = .ok c ∧
    startsWithBegin (triggerBody (oneTrigger remarkedTrigger) remarkedTrigger) = false ∧
    (lexed .code remarkedTrigger.sanitized).IsClosed ∧
    ∃ remark drop create,
      scan .code
          (render (triggerLines (oneTrigger remarkedTrigger) remarkedTrigger "orders_bi")).toList =
        some [remark, drop, create] ∧
      applyPrefix "my_".toList (create.valueAt "my_".toList) =
        ("CREATE TRIGGER \x60my_orders_bi\x60 BEFORE INSERT ON \x60my_orders\x60 FOR EACH ROW " ++
          "BEGIN SET NEW.total = 1 -- done; END").toList ∧
      lexed .code ("CREATE TRIGGER \x60my_orders_bi\x60 BEFORE INSERT ON \x60my_orders\x60 " ++
        "FOR EACH ROW BEGIN SET NEW.total = 1 -- done; ").toList = .lineComment := by
  refine ⟨_, rfl, by decide +kernel, by decide +kernel, _, _, _,
    scan_of_block (block_triggerLines _ _ _), ?_, by decide +kernel⟩
  unfold applyPrefix
  rw [ClassFile.searched_eq]
  decide +kernel

end SchemaInstaller
