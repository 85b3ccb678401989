import Mathlib.Data.List.Nodup
import SchemaInstaller.Installer.Compile
import SchemaInstaller.Proofs.Php.Names

/-!
# The names a plugin goes by

The main file of a plugin declares three functions and registers each of them under the name that it
has declared. The names are made from the slug, which may start with what a class name may not: a
class name starts with an underscore and goes on with a digit, the slug has no underscores, and the
functions start with the digit. That is the only way to an illegal name (`plugin_names_iff`).
-/

namespace SchemaInstaller

open Php

/-! ## Reading names off a source file -/

/-- The name that a line declares a function under. -/
def declaredOn (line : Text) : Option Text :=
  ("function ".toList.isPrefixOf? line).map (·.takeWhile (· != '('))

/-- The name between single quotes that a line registers. -/
def registeredOn (line : Text) : Option Text :=
  ("register_".toList.isPrefixOf? line).map fun rest =>
    (rest.dropWhile (· != '\x27')).tail.takeWhile (· != '\x27')

/-- The names of the functions that a source file declares at the margin. -/
def declaredFunctions (source : String) : List Text :=
  (List.splitOn '\n' source.toList).filterMap declaredOn

/-- The names that a source file registers. -/
def registeredFunctions (source : String) : List Text :=
  (List.splitOn '\n' source.toList).filterMap registeredOn

namespace Php

/-- The source text of a line without its line break. -/
def Line.body (l : Line) : Text :=
  List.replicate (4 * l.depth) ' ' ++ l.fragments.flatMap Fragment.render

/-- What stands in a fragment as a name or between single quotes. -/
def Fragment.given? : Fragment → Option Text
  | name s => some s.toList
  | singleQuoted t => some t
  | _ => none

/-- Whether a fragment stays on its line if what stands in it does. -/
def Fragment.isOnLine : Fragment → Bool
  | code s => s.toList.all (· != '\n')
  | name _ | singleQuoted _ | comment _ => true
  | doubleQuoted _ | heredoc _ => false

theorem newline_notMem_render {f : Fragment} (h : f.isOnLine = true)
    (hgiven : ∀ t, f.given? = some t → '\n' ∉ t) : '\n' ∉ f.render := by
  intro hmem
  cases f with
  | code s => simpa using List.all_eq_true.1 h '\n' hmem
  | name s => exact hgiven _ rfl hmem
  | doubleQuoted t => cases h
  | heredoc t => cases h
  | comment t => exact absurd (isLineBreak_of_mem_comment hmem) (by decide)
  | singleQuoted t =>
    have hinside : '\n' ∈ Php.singleQuoted t := by
      simpa [Fragment.render] using hmem
    rw [singleQuoted_eq_flatMap] at hinside
    obtain ⟨c, hc, hchar⟩ := List.mem_flatMap.1 hinside
    have hnewline : c = '\n' := by
      unfold singleQuotedChar at hchar
      grind
    exact hgiven t rfl (hnewline ▸ hc)

/-- The lines of a source file are what was rendered, with an empty one behind the last line
break. -/
theorem splitOn_render {ls : List Line} (h : ∀ l ∈ ls, '\n' ∉ l.body) :
    List.splitOn '\n' (render ls).toList = ls.map Line.body ++ [[]] := by
  unfold render
  rw [String.toList_ofList]
  induction ls with
  | nil => rfl
  | cons l ls ih =>
    obtain ⟨hl, hls⟩ := List.forall_mem_cons.1 h
    have hline : l.render ++ ls.flatMap Line.render = l.body ++ '\n' :: ls.flatMap Line.render := by
      unfold Line.render Line.body
      rw [List.append_assoc, List.singleton_append]
    rw [List.flatMap_cons, hline, List.splitOn_append_cons_self_of_not_mem hl, ih hls]
    rfl

theorem newline_notMem_body {l : Line} (h : ∀ f ∈ l.fragments, '\n' ∉ f.render) :
    '\n' ∉ l.body := by
  intro hmem
  rcases List.mem_append.1 hmem with hmem | hmem
  · exact absurd (List.eq_of_mem_replicate hmem) (by decide)
  · obtain ⟨f, hf, hmem⟩ := List.mem_flatMap.1 hmem
    exact h f hf hmem

theorem singleQuoted_eq_self {t : Text} (h : ∀ c ∈ t, c ≠ '\\' ∧ c ≠ '\x27') :
    singleQuoted t = t := by
  rw [singleQuoted_eq_flatMap]
  induction t with
  | nil => rfl
  | cons c r ih =>
    obtain ⟨⟨hslash, hquote⟩, hr⟩ := List.forall_mem_cons.1 h
    rw [List.flatMap_cons, ih hr, singleQuotedChar, if_neg hslash, if_neg hquote]
    rfl

end Php

/-! ## The names -/

/-- What the names of a plugin's functions end in. -/
def pluginRoles : List String := ["_activate", "_deactivate", "_uninstall"]

namespace Plan

/-- The names of the functions that a plugin declares and registers. -/
def functionNames (p : Plan) : List Text :=
  pluginRoles.map fun role => (functionPrefix (Php.slug p.className) ++ role).toList

end Plan

section Names

variable {p : Plan} (h : isClassName p.className = true)
include h

theorem isNameChar_of_mem_slug {c : Char} (hc : c ∈ (Php.slug p.className).toList) :
    isNameChar c = true ∨ c = '-' := by
  rw [Php.slug, String.toList_ofList] at hc
  exact mem_slugText (isNameChar_of_isName h) hc

theorem isNameChar_of_mem_functionPrefix {c : Char}
    (hc : c ∈ (functionPrefix (Php.slug p.className)).toList) : isNameChar c = true := by
  rw [functionPrefix, String.toList_ofList, Text.replaceChar] at hc
  obtain ⟨d, hd, hc⟩ := List.mem_flatMap.1 hc
  split at hc
  · rw [List.mem_singleton.1 hc]
    decide
  · rename_i hhyphen
    rw [List.mem_singleton.1 hc]
    exact (isNameChar_of_mem_slug h hd).resolve_right (by simpa using hhyphen)

theorem isNameChar_of_mem_functionNames {name : Text} (hname : name ∈ p.functionNames) {c : Char}
    (hc : c ∈ name) : isNameChar c = true := by
  obtain ⟨role, hrole, rfl⟩ := List.mem_map.1 hname
  rw [String.toList_append] at hc
  rcases List.mem_append.1 hc with hc | hc
  · exact isNameChar_of_mem_functionPrefix h hc
  · have hroles : ∀ role ∈ pluginRoles, role.toList.all isNameChar = true := by decide
    exact List.all_eq_true.1 (hroles role hrole) c hc

/-- The names of the functions are names unless the slug starts with a digit. -/
theorem isName_of_mem_functionNames {name : Text} (hname : name ∈ p.functionNames) :
    isName name = (p.className.toList.find? (· != '_')).all (!·.isDigit) := by
  have hchars : ∀ c ∈ name, isNameChar c = true :=
    fun c => isNameChar_of_mem_functionNames h hname
  obtain ⟨role, hrole, rfl⟩ := List.mem_map.1 hname
  rw [← all_head?_slugText (isNameChar_of_isName h)]
  rw [String.toList_append, functionPrefix, String.toList_ofList, Php.slug, String.toList_ofList]
    at hchars ⊢
  cases hslug : slugText p.className.toList with
  | nil =>
    have hroles : ∀ role ∈ pluginRoles, isName role.toList = true := by decide
    exact hroles role hrole
  | cons d r =>
    have hd : d ≠ '-' := ne_hyphen_of_head?_slugText (by rw [hslug]; rfl)
    have hfirst : Text.replaceChar '-' ['_'] (d :: r) = d :: Text.replaceChar '-' ['_'] r := by
      unfold Text.replaceChar
      rw [List.flatMap_cons, if_neg (by simpa using hd)]
      rfl
    rw [hslug, hfirst, List.cons_append] at hchars
    rw [hfirst, List.cons_append, isName, List.all_eq_true.2 (List.forall_mem_cons.1 hchars).2,
      Bool.and_true]
    rfl

/-! ### Files -/

/-- A character of the name of a file. -/
def isFileChar (c : Char) : Bool := isNameChar c || c == '-' || c == '.'

/-- The names of the three files of a plugin. -/
def fileNames (slug : String) : List String :=
  [classFileName slug, stubFileName slug, mainFileName slug]

theorem all_isFileChar_slug : (Php.slug p.className).toList.all isFileChar = true := by
  refine List.all_eq_true.2 fun c hc => ?_
  unfold isFileChar
  rcases isNameChar_of_mem_slug h hc with hname | rfl
  · rw [hname]
    rfl
  · rfl

theorem all_isFileChar_fileNames :
    ∀ name ∈ fileNames (Php.slug p.className), name.toList.all isFileChar = true := by
  have hslug := all_isFileChar_slug h
  have hclass : "class-".toList.all isFileChar = true := by decide
  have hsource : ".php".toList.all isFileChar = true := by decide
  have hstub : "-installer.php".toList.all isFileChar = true := by decide
  simp only [fileNames, classFileName, stubFileName, mainFileName, List.forall_mem_cons,
    String.toList_append, List.all_append, hslug, hclass, hsource, hstub, Bool.and_self, true_and]
  exact nofun

end Names

theorem length_fileNames (slug : String) : (fileNames slug).map String.length =
    [6 + slug.length + 4, slug.length + 14, slug.length + 4] := by
  have hclass : (classFileName slug).length = 6 + slug.length + 4 := by
    rw [classFileName, String.length_append, String.length_append]
    rfl
  have hstub : (stubFileName slug).length = slug.length + 14 := String.length_append ..
  have hmain : (mainFileName slug).length = slug.length + 4 := String.length_append ..
  rw [fileNames, List.map_cons, List.map_cons, List.map_cons, hclass, hstub, hmain, List.map_nil]

/-- The names of the files differ in length. -/
theorem nodup_fileNames (slug : String) : (fileNames slug).Nodup := by
  refine List.Nodup.of_map String.length ?_
  rw [length_fileNames]
  simp
  omega

theorem length_of_mem_fileNames {slug name : String} (h : name ∈ fileNames slug) :
    4 ≤ name.length := by
  have hlength : name.length ∈ (fileNames slug).map String.length := List.mem_map_of_mem h
  rw [length_fileNames] at hlength
  simp only [List.mem_cons, List.not_mem_nil, or_false] at hlength
  omega

/-- A name for an entry of a directory. -/
structure IsEntryName (name : String) : Prop where
  ne_empty : name ≠ ""
  ne_here : name ≠ "."
  ne_above : name ≠ ".."
  plain : ∀ c ∈ name.toList, c ≠ '/' ∧ c ≠ '\\' ∧ c ≠ '\x00'

/-- Names of files that end in more characters than the names of places have are entries. -/
theorem isEntryName_of_all {name : String} (h : name.toList.all isFileChar = true)
    (hlength : 4 ≤ name.length) : IsEntryName name where
  ne_empty := by
    rintro rfl
    exact absurd hlength (by decide)
  ne_here := by
    rintro rfl
    exact absurd hlength (by decide)
  ne_above := by
    rintro rfl
    exact absurd hlength (by decide)
  plain := by
    intro c hc
    have hchar := List.all_eq_true.1 h c hc
    refine ⟨?_, ?_, ?_⟩ <;> (rintro rfl; exact absurd hchar (by decide))

/-! ## The main file -/

namespace Companions

/-- The start of the main file. -/
def mainOpening (p : Plan) : List Line :=
  [.code 0 "<?php", .code 0 "/**",
    ⟨0, [.code " * Plugin Name: ", .comment (pluginName p.className)]⟩,
    ⟨0, [.code " * Description: Installs the database objects of ", .name p.className, .code "."]⟩,
    .code 0 " * Version: 1.0.0", .code 0 " */", .blank,
    .code 0 "if ( ! defined( 'ABSPATH' ) ) \x7b", .code 1 "exit;", .code 0 "\x7d", .blank,
    ⟨0, [.code "require_once plugin_dir_path( __FILE__ ) . ",
      .singleQuoted (classFileName (slug p.className)).toList, .code ";"]⟩, .blank]

/-- What the function for activation does. -/
def activation (p : Plan) : List Line :=
  [.code 1 "global $wpdb;", makeInstaller 1 p, .code 1 "$installer->install();",
    .code 1 "$installer->populate();", .code 0 "\x7d", .blank]

/-- What the function for deactivation does. -/
def deactivation : List Line := [.code 0 "\x7d", .blank]

/-- What the function for removal does. -/
def removal (p : Plan) : List Line :=
  [.code 1 "global $wpdb;", makeInstaller 1 p, .code 1 "$installer->uninstall();",
    .code 0 "\x7d", .blank]

/-- The lines that register the functions. -/
def registrations (p : Plan) : List Line :=
  [hookLine ("register_" ++ "activation_hook") (slug p.className) "_activate",
    hookLine ("register_" ++ "deactivation_hook") (slug p.className) "_deactivate",
    hookLine ("register_" ++ "uninstall_hook") (slug p.className) "_uninstall"]

theorem mainLines_eq (p : Plan) : mainLines p =
    mainOpening p ++ (functionLine (slug p.className) "_activate" :: activation p) ++
      (functionLine (slug p.className) "_deactivate" :: deactivation) ++
      (functionLine (slug p.className) "_uninstall" :: removal p) ++ registrations p := rfl

theorem given_mainLines (p : Plan) :
    ((mainLines p).flatMap (·.fragments)).filterMap Fragment.given? =
      let name := fun role => (functionPrefix (slug p.className) ++ role).toList
      [p.className.toList, (classFileName (slug p.className)).toList, name "_activate",
        p.className.toList, name "_deactivate", name "_uninstall", p.className.toList,
        name "_activate", name "_deactivate", name "_uninstall"] := rfl

theorem isOnLine_mainLines (p : Plan) :
    ((mainLines p).flatMap (·.fragments)).all Fragment.isOnLine = true := rfl

/-- What stands in the main file is the name of the class, that of its file, or that of a
function. -/
theorem mem_given_mainLines {p : Plan} :
    ∀ t ∈ ((mainLines p).flatMap (·.fragments)).filterMap Fragment.given?,
      t = p.className.toList ∨ t = (classFileName (slug p.className)).toList ∨
        t ∈ p.functionNames := by
  have hname : ∀ {t : Text}, t ∈ p.functionNames → t = p.className.toList ∨
      t = (classFileName (slug p.className)).toList ∨ t ∈ p.functionNames :=
    fun ht => Or.inr (Or.inr ht)
  have hactivate := hname (List.mem_map_of_mem (show "_activate" ∈ pluginRoles by decide))
  have hdeactivate := hname (List.mem_map_of_mem (show "_deactivate" ∈ pluginRoles by decide))
  have huninstall := hname (List.mem_map_of_mem (show "_uninstall" ∈ pluginRoles by decide))
  rw [given_mainLines]
  simp only [List.forall_mem_cons, true_or, or_true, true_and]
  exact ⟨hactivate, hdeactivate, huninstall, hactivate, hdeactivate, huninstall, nofun⟩

/-- Every line of the main file is one line. -/
theorem newline_notMem_mainLines {p : Plan} (h : isClassName p.className = true) :
    ∀ l ∈ mainLines p, '\n' ∉ l.body := by
  intro l hl
  refine newline_notMem_body fun f hf => ?_
  have hmem : f ∈ (mainLines p).flatMap (·.fragments) := List.mem_flatMap.2 ⟨l, hl, hf⟩
  refine newline_notMem_render (List.all_eq_true.1 (isOnLine_mainLines p) f hmem) fun t ht => ?_
  have hnewline : isNameChar '\n' = false := by decide
  rcases mem_given_mainLines t (List.mem_filterMap.2 ⟨f, hmem, ht⟩) with rfl | rfl | hfunction
  · intro hc
    exact ne_of_isNameChar (isNameChar_of_isName h _ hc) hnewline rfl
  · intro hc
    have hfile := all_isFileChar_fileNames h _ List.mem_cons_self
    exact absurd (List.all_eq_true.1 hfile _ hc) (by decide)
  · intro hc
    exact ne_of_isNameChar (isNameChar_of_mem_functionNames h hfunction hc) hnewline rfl

/-! ### Lines with names on them -/

theorem declaredOn_functionLine (slug : String) {role : String}
    (h : ∀ c ∈ (functionPrefix slug ++ role).toList, isNameChar c = true) :
    declaredOn (functionLine slug role).body = some (functionPrefix slug ++ role).toList := by
  have hbody : (functionLine slug role).body = "function ".toList ++
      ((functionPrefix slug ++ role).toList ++ "() \x7b".toList) := by
    show _ ++ ("function ".toList ++ (_ ++ ("() \x7b".toList ++ []))) = _
    rw [List.append_nil]
    rfl
  have hplain : ∀ c ∈ (functionPrefix slug ++ role).toList, (c != '(') = true := by
    intro c hc
    simpa using ne_of_isNameChar (h c hc) (show isNameChar '(' = false by decide)
  rw [hbody, declaredOn, List.isPrefixOf?_eq_some_iff_append_eq.2 rfl, Option.map_some,
    List.takeWhile_append_of_pos hplain]
  have hend : "() \x7b".toList.takeWhile (· != '(') = [] := by decide
  rw [hend, List.append_nil]

theorem registeredOn_hookLine (slug : String) {hook role : String}
    (h : ∀ c ∈ (functionPrefix slug ++ role).toList, isNameChar c = true)
    (hhook : hook.toList.all (· != '\x27') = true) :
    registeredOn (hookLine ("register_" ++ hook) slug role).body =
      some (functionPrefix slug ++ role).toList := by
  have hplain : ∀ c ∈ (functionPrefix slug ++ role).toList, c ≠ '\\' ∧ c ≠ '\x27' :=
    fun c hc => ⟨ne_of_isNameChar (h c hc) (by decide), ne_of_isNameChar (h c hc) (by decide)⟩
  have hbody : (hookLine ("register_" ++ hook) slug role).body = "register_".toList ++
      ((hook.toList ++ "( __FILE__, ".toList) ++ '\x27' ::
        ((functionPrefix slug ++ role).toList ++ '\x27' :: " );".toList)) := by
    show _ ++ (("register_" ++ hook ++ "( __FILE__, ").toList ++
      (('\x27' :: singleQuoted (functionPrefix slug ++ role).toList ++ ['\x27']) ++
        (" );".toList ++ []))) = _
    rw [singleQuoted_eq_self hplain, String.toList_append, String.toList_append]
    simp only [List.append_assoc, List.cons_append, List.nil_append, List.append_nil]
    rfl
  have hhead : ∀ c ∈ hook.toList ++ "( __FILE__, ".toList, (c != '\x27') = true := by
    have hfile : "( __FILE__, ".toList.all (· != '\x27') = true := by decide
    exact List.forall_mem_append.2 ⟨List.all_eq_true.1 hhook, List.all_eq_true.1 hfile⟩
  have hname : ∀ c ∈ (functionPrefix slug ++ role).toList, (c != '\x27') = true := by
    intro c hc
    simpa using (hplain c hc).2
  rw [hbody, registeredOn, List.isPrefixOf?_eq_some_iff_append_eq.2 rfl, Option.map_some,
    List.dropWhile_append_of_pos hhead, List.dropWhile_cons_of_neg (by decide), List.tail_cons, List.takeWhile_append_of_pos hname,
    List.takeWhile_cons_of_neg (by decide), List.append_nil]

/-- The lines between those of the functions declare nothing. -/
theorem declared_mainLines {p : Plan} (h : isClassName p.className = true) :
    ((mainLines p).map Line.body).filterMap declaredOn = p.functionNames := by
  have hname : ∀ role ∈ pluginRoles, declaredOn (functionLine (slug p.className) role).body =
      some (functionPrefix (slug p.className) ++ role).toList := fun role hrole =>
    declaredOn_functionLine _ fun _ =>
      isNameChar_of_mem_functionNames h (List.mem_map_of_mem hrole)
  have hopening : ((mainOpening p).map Line.body).filterMap declaredOn = [] := rfl
  have hactivation : ((activation p).map Line.body).filterMap declaredOn = [] := rfl
  have hdeactivation : (deactivation.map Line.body).filterMap declaredOn = [] := rfl
  have hremoval : ((removal p).map Line.body).filterMap declaredOn = [] := rfl
  have hregistrations : ((registrations p).map Line.body).filterMap declaredOn = [] := rfl
  rw [mainLines_eq]
  simp only [List.map_append, List.filterMap_append, hopening, hregistrations]
  rw [List.map_cons, List.map_cons, List.map_cons,
    List.filterMap_cons_some (hname "_activate" (by decide)), hactivation,
    List.filterMap_cons_some (hname "_deactivate" (by decide)), hdeactivation,
    List.filterMap_cons_some (hname "_uninstall" (by decide)), hremoval]
  rfl

/-- Only the lines at the end register something. -/
theorem registered_mainLines {p : Plan} (h : isClassName p.className = true) :
    ((mainLines p).map Line.body).filterMap registeredOn = p.functionNames := by
  have hname : ∀ hook : String, hook.toList.all (· != '\x27') = true → ∀ role ∈ pluginRoles,
      registeredOn (hookLine ("register_" ++ hook) (slug p.className) role).body =
        some (functionPrefix (slug p.className) ++ role).toList := fun hook hhook role hrole =>
    registeredOn_hookLine _
      (fun _ => isNameChar_of_mem_functionNames h (List.mem_map_of_mem hrole)) hhook
  have hopening : ((mainOpening p).map Line.body).filterMap registeredOn = [] := rfl
  have hactivation : ((functionLine (slug p.className) "_activate" :: activation p).map
      Line.body).filterMap registeredOn = [] := rfl
  have hdeactivation : ((functionLine (slug p.className) "_deactivate" :: deactivation).map
      Line.body).filterMap registeredOn = [] := rfl
  have hremoval : ((functionLine (slug p.className) "_uninstall" :: removal p).map
      Line.body).filterMap registeredOn = [] := rfl
  rw [mainLines_eq]
  simp only [List.map_append, List.filterMap_append, hopening, hactivation, hdeactivation, hremoval]
  rw [registrations, List.map_cons, List.map_cons, List.map_cons, List.map_nil,
    List.filterMap_cons_some (hname "activation_hook" (by decide) "_activate" (by decide)),
    List.filterMap_cons_some (hname "deactivation_hook" (by decide) "_deactivate" (by decide)),
    List.filterMap_cons_some (hname "uninstall_hook" (by decide) "_uninstall" (by decide))]
  rfl

end Companions

/-! ## The plugin -/

section Plugin

variable {p : Plan} (h : isClassName p.className = true)
include h

theorem filterMap_mainPlugin {f : Text → Option Text} (hf : f [] = none) :
    (List.splitOn '\n' p.compiled.mainPlugin.content.toList).filterMap f =
      ((Companions.mainLines p).map Line.body).filterMap f := by
  show (List.splitOn '\n' (render (Companions.mainLines p)).toList).filterMap f = _
  rw [splitOn_render (Companions.newline_notMem_mainLines h), List.filterMap_append,
    List.filterMap_cons_none hf, List.filterMap_nil, List.append_nil]

theorem declaredFunctions_mainPlugin :
    declaredFunctions p.compiled.mainPlugin.content = p.functionNames :=
  (filterMap_mainPlugin h rfl).trans (Companions.declared_mainLines h)

theorem registeredFunctions_mainPlugin :
    registeredFunctions p.compiled.mainPlugin.content = p.functionNames :=
  (filterMap_mainPlugin h rfl).trans (Companions.registered_mainLines h)

/-- All functions have legal names or none has. -/
theorem isLabel_functionNames_iff : (∀ name ∈ p.functionNames, isLabel (utf8 name) = true) ↔
    (p.className.toList.find? (· != '_')).all (!·.isDigit) = true := by
  constructor
  · intro hlabels
    have hname : (functionPrefix (Php.slug p.className) ++ "_activate").toList ∈ p.functionNames :=
      List.mem_map_of_mem List.mem_cons_self
    rw [← isName_of_mem_functionNames h hname, ← isLabel_utf8]
    exact hlabels _ hname
  · intro hfirst name hname
    rw [isLabel_utf8, isName_of_mem_functionNames h hname, hfirst]

end Plugin

/-- Every legal class name gives a plugin that registers the functions it declares, and three files
under different names that are entries of a directory; and the names of the functions are labels of
PHP exactly if the first character of the class name that is no underscore is not a digit. -/
theorem plugin_names_iff (p : Plan) (h : isClassName p.className = true) :
    (declaredFunctions p.compiled.mainPlugin.content = p.functionNames ∧
        registeredFunctions p.compiled.mainPlugin.content = p.functionNames) ∧
      ((∀ name ∈ p.functionNames, isLabel (utf8 name) = true) ↔
        (p.className.toList.find? (· != '_')).all (!·.isDigit) = true) ∧
      (p.compiled.files.map (·.fileName)).Nodup ∧
        ∀ file ∈ p.compiled.files, IsEntryName file.fileName := by
  refine ⟨⟨declaredFunctions_mainPlugin h, registeredFunctions_mainPlugin h⟩,
    isLabel_functionNames_iff h, nodup_fileNames (Php.slug p.className), fun file hfile => ?_⟩
  have hname : file.fileName ∈ fileNames (Php.slug p.className) := List.mem_map_of_mem hfile
  exact isEntryName_of_all (all_isFileChar_fileNames h _ hname) (length_of_mem_fileNames hname)

/-- The plan for a shop without tables. -/
def shopPlan (className : String) : Plan :=
  ⟨.empty "shop" "wp_" .epoch, className, .standard⟩

theorem acmeShop_names : isClassName "Acme_Shop" = true ∧
    declaredFunctions (shopPlan "Acme_Shop").compiled.mainPlugin.content =
      ["acme_shop_activate".toList, "acme_shop_deactivate".toList, "acme_shop_uninstall".toList] ∧
      ∀ name ∈ (shopPlan "Acme_Shop").functionNames, isLabel (utf8 name) = true := by
  have h : isClassName (shopPlan "Acme_Shop").className = true := by decide
  obtain ⟨⟨hdeclared, -⟩, hlabels, -⟩ := plugin_names_iff (shopPlan "Acme_Shop") h
  exact ⟨h, hdeclared.trans (by decide), hlabels.2 (by decide)⟩

/-- The class name is legal, and the name of the function is none. -/
theorem digitClass_names : isClassName "_2Fast" = true ∧
    "2_fast_activate".toList ∈ declaredFunctions (shopPlan "_2Fast").compiled.mainPlugin.content ∧
      isLabel (utf8 "2_fast_activate".toList) = false := by
  have h : isClassName (shopPlan "_2Fast").className = true := by decide
  refine ⟨h, ?_, by decide⟩
  rw [declaredFunctions_mainPlugin h]
  decide

end SchemaInstaller
