import Mathlib.Data.Bool.AllAny
import Mathlib.Data.List.Forall2
import SchemaInstaller.Sql.Parameters
import SchemaInstaller.Installer.Statement
import SchemaInstaller.Proofs.Text.Words

/-!
# Parameter lists read back

The parameters that are read off the definition of a procedure are those that it declares
(`parameters_of_declares`). Both scanners, the one that looks for the end of the list and the one
that splits it at its commas, pass a type as a whole, because its parentheses and quotes are
balanced (`Balanced`): they come out of it as they went in (`Passes.balanced`).
-/

namespace SchemaInstaller

open Scan Text

namespace Sql

/-! ## Balanced texts -/

/-- Every parenthesis has its partner and every quote is closed by the next one of its kind. Outside
of parentheses and quotes there are commas only if `commas` says so. -/
inductive Balanced : Bool → Text → Prop
  | nil {commas : Bool} : Balanced commas []
  | plain {commas : Bool} {c : Char} {t : Text} (hquote : isQuote c = false) (hopen : c ≠ '(')
      (hclose : c ≠ ')') (hcomma : c = ',' → commas = true) (ht : Balanced commas t) :
      Balanced commas (c :: t)
  | quoted {commas : Bool} {q : Char} {u t : Text} (hq : isQuote q = true) (hu : q ∉ u)
      (ht : Balanced commas t) : Balanced commas (q :: (u ++ q :: t))
  | nested {commas : Bool} {u t : Text} (hu : Balanced true u) (ht : Balanced commas t) :
      Balanced commas ('(' :: (u ++ ')' :: t))

namespace Balanced

variable {commas : Bool} {t u : Text}

theorem append (ht : Balanced commas t) (hu : Balanced commas u) : Balanced commas (t ++ u) := by
  induction ht with
  | nil => exact hu
  | plain hquote hopen hclose hcomma _ ih => exact plain hquote hopen hclose hcomma (ih hu)
  | quoted hq hv _ ih =>
    rw [List.cons_append, List.append_assoc]
    exact quoted hq hv (ih hu)
  | nested hv _ _ ih =>
    rw [List.cons_append, List.append_assoc]
    exact nested hv (ih hu)

theorem of_forall
    (h : ∀ c ∈ t, isQuote c = false ∧ c ≠ '(' ∧ c ≠ ')' ∧ (c = ',' → commas = true)) :
    Balanced commas t := by
  induction t with
  | nil => exact nil
  | cons c t ih =>
    obtain ⟨hquote, hopen, hclose, hcomma⟩ := h c List.mem_cons_self
    exact plain hquote hopen hclose hcomma (ih fun d hd => h d (List.mem_cons_of_mem c hd))

theorem with_commas (h : Balanced commas t) : Balanced true t := by
  induction h with
  | nil => exact nil
  | plain hquote hopen hclose _ _ ih => exact plain hquote hopen hclose (fun _ => rfl) ih
  | quoted hq hu _ ih => exact quoted hq hu ih
  | nested hu _ _ ih => exact nested hu ih

/-- Commas and spaces between balanced texts leave them balanced. -/
theorem commaList {ds : List Text} (h : ∀ d ∈ ds, Balanced true d) :
    Balanced true (Statement.commaList ds) := by
  unfold Statement.commaList
  induction ds with
  | nil => exact nil
  | cons d ds ih =>
    have hd := h d List.mem_cons_self
    have hrest := ih fun e he => h e (List.mem_cons_of_mem d he)
    have hcomma : Balanced true [',', ' '] := of_forall (List.all_iff_forall_prop.1 (by decide))
    cases ds with
    | nil =>
      rw [List.intercalate_singleton]
      exact hd
    | cons e ds =>
      rw [List.intercalate_cons_cons]
      exact (hd.append hcomma).append hrest

end Balanced

theorem isQuote_iff {c : Char} : isQuote c = true ↔ c = '\x27' ∨ c = '\x22' ∨ c = '\x60' := by
  simp only [isQuote, Bool.or_eq_true, beq_iff_eq, or_assoc]

/-! ## Scanners -/

theorem quoteBehind_of_ne {q c : Char} (h : c ≠ q) : quoteBehind (some q) c = some q :=
  if_neg (by simpa using h)

theorem quoteBehind_closing (q : Char) : quoteBehind (some q) q = none :=
  if_pos (beq_self_eq_true q)

theorem quoteBehind_opening {q : Char} (h : isQuote q = true) : quoteBehind none q = some q :=
  if_pos h

theorem quoteBehind_plain {c : Char} (h : isQuote c = false) : quoteBehind none c = none :=
  if_neg (by simp [h])

/-- A scanner that counts parentheses and minds quotes, and puts each character that it passes
before what it finds behind it. At some depths, all but the outermost at least, it passes commas,
too. -/
structure Passes {α : Type} (scan : Nat → Option Char → Text → α) (put : Text → α → α)
    (commas : Nat → Prop) : Prop where
  put_nil : ∀ a, put [] a = a
  put_append : ∀ t u a, put t (put u a) = put (t ++ u) a
  inQuotes : ∀ depth q c r,
    scan depth (some q) (c :: r) = put [c] (scan depth (quoteBehind (some q) c) r)
  opening : ∀ depth r, scan depth none ('(' :: r) = put ['('] (scan (depth + 1) none r)
  closing : ∀ depth r, scan (depth + 1) none (')' :: r) = put [')'] (scan depth none r)
  other : ∀ depth c r, c ≠ '(' → c ≠ ')' → (c = ',' → commas depth) →
    scan depth none (c :: r) = put [c] (scan depth (quoteBehind none c) r)
  inner : ∀ depth, commas (depth + 1)

namespace Passes

variable {α : Type} {scan : Nat → Option Char → Text → α} {put : Text → α → α}
  {commas : Nat → Prop} (h : Passes scan put commas)
include h

/-- Inside of quotes the scanner looks for the closing quote only. -/
theorem quoted {q : Char} {u : Text} (hu : q ∉ u) (depth : Nat) (r : Text) :
    scan depth (some q) (u ++ q :: r) = put (u ++ [q]) (scan depth none r) := by
  induction u with
  | nil => rw [List.nil_append, h.inQuotes, quoteBehind_closing, List.nil_append]
  | cons c u ih =>
    rw [List.mem_cons, not_or] at hu
    rw [List.cons_append, h.inQuotes, quoteBehind_of_ne (Ne.symm hu.1), ih hu.2, h.put_append]
    rfl

/-- A balanced text is passed as a whole, and the scanner is at the same depth behind it. -/
theorem balanced {outside : Bool} {t : Text} (ht : Balanced outside t) {depth : Nat}
    (hdepth : outside = true → commas depth) (r : Text) :
    scan depth none (t ++ r) = put t (scan depth none r) := by
  induction ht generalizing depth r with
  | nil => rw [List.nil_append, h.put_nil]
  | plain hquote hopen hclose hcomma _ ih =>
    rw [List.cons_append, h.other _ _ _ hopen hclose fun hc => hdepth (hcomma hc),
      quoteBehind_plain hquote, ih hdepth, h.put_append]
    rfl
  | @quoted _ q u t hq hu _ ih =>
    obtain ⟨hopen, hclose, hcomma⟩ : q ≠ '(' ∧ q ≠ ')' ∧ q ≠ ',' := by
      rcases isQuote_iff.1 hq with rfl | rfl | rfl <;> decide
    rw [List.cons_append, List.append_assoc, List.cons_append,
      h.other _ _ _ hopen hclose fun hc => absurd hc hcomma, quoteBehind_opening hq, h.quoted hu,
      ih hdepth, h.put_append, h.put_append]
    simp only [List.cons_append, List.nil_append, List.append_assoc]
  | nested _ _ ihu ih =>
    rw [List.cons_append, List.append_assoc, List.cons_append, h.opening,
      ihu fun _ => h.inner depth, h.closing, ih hdepth, h.put_append, h.put_append, h.put_append]
    simp only [List.cons_append, List.nil_append, List.append_assoc]

end Passes

/-! ## The end of the list -/

theorem untilClosing_passes :
    Passes untilClosing (fun t o => o.map (t ++ ·)) fun _ => True where
  put_nil o := by simp
  put_append t u o := by cases o <;> simp
  inQuotes _ _ _ _ := rfl
  opening _ _ := rfl
  closing _ _ := rfl
  other depth c r hopen hclose _ := by
    rw [untilClosing.eq_def]
    simp [hopen, hclose]
  inner _ := trivial

/-! ## The commas of the list -/

theorem splitTopLevel_ne_nil (depth : Nat) (quote : Option Char) (t : Text) :
    splitTopLevel depth quote t ≠ [] := by
  cases t with
  | nil => exact List.cons_ne_nil _ _
  | cons c t =>
    rw [splitTopLevel]
    split_ifs
    all_goals first | exact List.cons_ne_nil _ _ | (dsimp only; split <;> exact List.cons_ne_nil _ _)

/-- A character that is put before the first piece. -/
theorem cons_piece (depth : Nat) (quote : Option Char) (c : Char) (t : Text) :
    (match splitTopLevel depth quote t with
      | [] => [[c]]
      | piece :: pieces => (c :: piece) :: pieces) =
      (splitTopLevel depth quote t).modifyHead ([c] ++ ·) := by
  cases h : splitTopLevel depth quote t with
  | nil => exact absurd h (splitTopLevel_ne_nil depth quote t)
  | cons piece pieces => rfl

theorem splitTopLevel_passes :
    Passes splitTopLevel (fun t pieces => pieces.modifyHead (t ++ ·)) (0 < ·) where
  put_nil pieces := congrFun List.modifyHead_id pieces
  put_append t u pieces := by cases pieces <;> simp
  inQuotes depth q c r := cons_piece depth (quoteBehind (some q) c) c r
  opening depth r := cons_piece (depth + 1) none '(' r
  closing depth r := cons_piece depth none ')' r
  other depth c r hopen hclose hcomma := by
    have hend : ¬(c == ',' && depth == 0) = true := by
      simp only [Bool.and_eq_true, beq_iff_eq, not_and]
      intro hc
      have := hcomma hc
      omega
    rw [splitTopLevel, if_neg (by simp), if_neg (by simpa using hopen),
      if_neg (by simpa using hclose), if_neg hend]
    exact cons_piece depth (quoteBehind none c) c r
  inner depth := Nat.succ_pos depth

theorem splitTopLevel_comma (r : Text) :
    splitTopLevel 0 none (',' :: r) = [] :: splitTopLevel 0 none r := rfl

/-- The declarations of the list are its pieces, all but the first behind a space. -/
theorem splitTopLevel_commaList {d : Text} {ds : List Text}
    (h : ∀ e ∈ d :: ds, Balanced false e) :
    splitTopLevel 0 none (Statement.commaList (d :: ds)) = d :: ds.map (' ' :: ·) := by
  have hpiece : ∀ {e : Text}, Balanced false e → ∀ r, splitTopLevel 0 none (e ++ r) =
      (splitTopLevel 0 none r).modifyHead (e ++ ·) := fun he =>
    splitTopLevel_passes.balanced he fun hc => by cases hc
  have hspace : Balanced false [' '] := .of_forall (List.all_iff_forall_prop.1 (by decide))
  unfold Statement.commaList
  induction ds generalizing d with
  | nil =>
    rw [List.intercalate_singleton, ← List.append_nil d, hpiece (h d List.mem_cons_self)]
    rfl
  | cons e ds ih =>
    have hd := h d List.mem_cons_self
    have hrest := ih fun x hx => h x (List.mem_cons_of_mem d hx)
    have hnext := hpiece hspace ([',', ' '].intercalate (e :: ds))
    rw [hrest] at hnext
    rw [List.intercalate_cons_cons, List.append_assoc, hpiece hd]
    show (splitTopLevel 0 none
      (',' :: ([' '] ++ [',', ' '].intercalate (e :: ds)))).modifyHead _ = _
    rw [splitTopLevel_comma, hnext]
    show (d ++ []) :: _ = _
    rw [List.append_nil]
    rfl

/-! ## The opening of the list -/

/-- What does not start with a `P` is passed over in the search for the header. -/
theorem procedureOpening_of_ne {c : Char} (h : sameLetter 'P' c = false) (prev : Option Char)
    (r : Text) : procedureOpening prev (c :: r) = none := by
  have hkeyword : keyword "PROCEDURE" (c :: r) = none := by
    show (if sameLetter 'P' c = true then _ else none) = none
    rw [if_neg (by simp [h])]
  unfold procedureOpening
  rw [hkeyword]
  cases wordStart prev <;> rfl

/-- Characters that no match starts with are passed over. -/
theorem firstMatch_append {rule : Rule} {u : Text} {last : Char} (hlast : u.getLast? = some last)
    (h : ∀ c ∈ u, ∀ prev t, rule prev (c :: t) = none) (prev : Option Char) (t : Text) :
    firstMatch rule prev (u ++ t) =
      (firstMatch rule (some last) t).map fun m => (u ++ m.1, m.2) := by
  induction u generalizing prev with
  | nil => cases hlast
  | cons c u ih =>
    rw [List.cons_append, firstMatch, h c List.mem_cons_self]
    cases u with
    | nil =>
      cases hlast
      rfl
    | cons d u =>
      have hrest := ih hlast fun e he => h e (List.mem_cons_of_mem c he)
      show (firstMatch rule (some c) (d :: u ++ t)).map _ = _
      rw [hrest, Option.map_map]
      rfl

theorem firstMatch_of_some {rule : Rule} {prev : Option Char} {t new rest : Text}
    (ht : t ≠ []) (h : rule prev t = some (new, rest)) :
    firstMatch rule prev t = some ([], new, rest) := by
  obtain ⟨c, t, rfl⟩ := List.exists_cons_of_ne_nil ht
  rw [firstMatch, h]

theorem procedureOpening_header {n : Text} (hn : '\x60' ∉ n) (r : Text) :
    procedureOpening (some ' ') ("PROCEDURE \x60".toList ++ (n ++ '\x60' :: '(' :: r)) =
      some r := by
  have hname : routineName ('\x60' :: (n ++ '\x60' :: '(' :: r)) = some ('(' :: r) := by
    unfold routineName orElse
    rw [quotedBy_append hn]
    rfl
  have hsplit : "PROCEDURE \x60".toList ++ (n ++ '\x60' :: '(' :: r) =
      "PROCEDURE".toList ++ ' ' :: '\x60' :: (n ++ '\x60' :: '(' :: r) := rfl
  unfold procedureOpening
  rw [hsplit, keyword_append]
  show openingBehindName ('\x60' :: (n ++ '\x60' :: '(' :: r)) = some r
  unfold openingBehindName
  rw [hname]
  rfl

/-- The header of a procedure, up to the parenthesis that opens its parameter list. -/
def createProcedure (name : Text) : Text :=
  "CREATE PROCEDURE \x60".toList ++ name ++ "\x60(".toList

theorem behindOpening_createProcedure {n : Text} (hn : '\x60' ∉ n) (r : Text) :
    behindOpening (createProcedure n ++ r) = some r := by
  have hsplit : createProcedure n ++ r =
      "CREATE ".toList ++ ("PROCEDURE \x60".toList ++ (n ++ '\x60' :: '(' :: r)) := by
    unfold createProcedure
    rw [List.append_assoc, List.append_assoc]
    rfl
  have hskip : ∀ c ∈ "CREATE ".toList, sameLetter 'P' c = false :=
    List.all_iff_forall_prop.1 (by decide)
  have hmatch : firstMatch (fun prev t => (procedureOpening prev t).map ([], ·)) (some ' ')
      ("PROCEDURE \x60".toList ++ (n ++ '\x60' :: '(' :: r)) = some ([], [], r) := by
    refine firstMatch_of_some (List.cons_ne_nil _ _) ?_
    rw [procedureOpening_header hn]
    rfl
  unfold behindOpening
  have hlast : "CREATE ".toList.getLast? = some ' ' := rfl
  rw [hsplit, firstMatch_append hlast, hmatch]
  · rfl
  · intro c hc prev t
    rw [procedureOpening_of_ne (hskip c hc)]
    rfl

/-! ## Declarations -/

/-- The ways to write a parameter down: with its direction as a keyword in some case, or without
one, which means `IN`, where the name cannot be taken for a direction. -/
inductive Declares (p : Parameter) : Text → Prop
  | directed {word : Text} (hword : upperAscii word = p.mode.keyword.toList) :
      Declares p (word ++ ' ' :: (p.name.toList ++ ' ' :: p.dataType.toList))
  | undirected (hmode : p.mode = .input)
      (hname : ∀ mode : ParameterMode, upperAscii p.name.toList ≠ mode.keyword.toList) :
      Declares p (p.name.toList ++ ' ' :: p.dataType.toList)

/-- A name without blanks, quotes, commas and parentheses, and a type of words with single spaces
between them, whose parentheses and quotes are balanced and hold all of its commas. -/
structure IsDeclarable (p : Parameter) : Prop where
  name_word : IsWord p.name.toList
  name_plain : ∀ c ∈ p.name.toList, isQuote c = false ∧ c ≠ '(' ∧ c ≠ ')' ∧ c ≠ ','
  type_words : ∃ ws : List Text, ws ≠ [] ∧ (∀ w ∈ ws, IsWord w) ∧
    p.dataType.toList = [' '].intercalate ws
  type_balanced : Balanced false p.dataType.toList

theorem ofWord?_eq_some_iff {word : Text} {mode : ParameterMode} :
    ParameterMode.ofWord? word = some mode ↔ upperAscii word = mode.keyword.toList := by
  have hlookup : ∀ w : String, ParameterMode.named.lookup w = some mode ↔ w = mode.keyword := by
    intro w
    constructor
    · intro h
      simp only [ParameterMode.named, List.lookup_cons, List.lookup_nil] at h
      split at h
      · cases h
        exact eq_of_beq ‹_›
      · split at h
        · cases h
          exact eq_of_beq ‹_›
        · split at h
          · cases h
            exact eq_of_beq ‹_›
          · cases h
    · rintro rfl
      cases mode <;> rfl
  unfold ParameterMode.ofWord?
  rw [hlookup, ← String.toList_inj, String.toList_ofList]

theorem ofWord?_eq_none_iff {word : Text} :
    ParameterMode.ofWord? word = none ↔
      ∀ mode : ParameterMode, upperAscii word ≠ mode.keyword.toList := by
  simp only [Option.eq_none_iff_forall_ne_some, ne_eq, ofWord?_eq_some_iff]

/-- The keyword of a direction is a word, in whatever case, and holds nothing but letters. -/
theorem isAlphanum_of_direction {word : Text} {mode : ParameterMode}
    (h : upperAscii word = mode.keyword.toList) : ∀ c ∈ word, c.isAlphanum = true := by
  intro c hc
  have hmem : c.toUpper ∈ mode.keyword.toList := h ▸ List.mem_map_of_mem hc
  have hupper : c.toUpper.isUpper = true := by
    have hall : ∀ mode : ParameterMode, mode.keyword.toList.all Char.isUpper = true := by
      intro mode
      cases mode <;> rfl
    exact List.all_eq_true.1 (hall mode) _ hmem
  by_cases hlower : c.isLower = true
  · exact isAlphanum_iff.2 (Or.inl (Or.inr hlower))
  · rw [toUpper_of_not_isLower hlower] at hupper
    exact isAlphanum_iff.2 (Or.inl (Or.inl hupper))

theorem isWord_of_direction {word : Text} {mode : ParameterMode}
    (h : upperAscii word = mode.keyword.toList) : IsWord word := by
  refine ⟨?_, fun c hc => isBlank_of_isAlphanum (isAlphanum_of_direction h c hc)⟩
  rintro rfl
  cases mode <;> cases h

theorem trimBackticks_of_not_mem {t : Text} (h : '\x60' ∉ t) : trimBackticks t = t := by
  have hkeep : ∀ u : Text, '\x60' ∉ u → u.dropWhile (· == '\x60') = u := by
    intro u hu
    cases u with
    | nil => rfl
    | cons c u =>
      rw [List.dropWhile_cons_of_neg]
      simpa using fun hc : c = '\x60' => hu (hc ▸ List.mem_cons_self)
  unfold trimBackticks
  rw [hkeep t h, hkeep t.reverse (by simpa using h), List.reverse_reverse]

/-- What `parameter?` reads does not depend on blanks before the declaration. -/
theorem parameter?_space (d : Text) : parameter? (' ' :: d) = parameter? d := by
  unfold parameter?
  rw [words_blank rfl]

section Declares

variable {p : Parameter} {d : Text}

theorem parameterOf_eq (hp : IsDeclarable p) {ws : List Text}
    (hws : p.dataType.toList = [' '].intercalate ws) :
    parameterOf p.mode p.name.toList ws = p := by
  have hname : '\x60' ∉ p.name.toList := fun h => by cases (hp.name_plain _ h).1
  unfold parameterOf
  rw [trimBackticks_of_not_mem hname, ← hws, String.ofList_toList, String.ofList_toList]

theorem Declares.balanced (h : Declares p d) (hp : IsDeclarable p) : Balanced false d := by
  have hspace : ∀ t : Text, Balanced false t → Balanced false (' ' :: t) := by
    intro t ht
    exact .plain rfl (by decide) (by decide) (fun hc => by cases hc) ht
  have hname : Balanced false (p.name.toList ++ ' ' :: p.dataType.toList) := by
    refine (Balanced.of_forall fun c hc => ?_).append (hspace _ hp.type_balanced)
    obtain ⟨hquote, hopen, hclose, hcomma⟩ := hp.name_plain c hc
    exact ⟨hquote, hopen, hclose, fun h => absurd h hcomma⟩
  cases h with
  | undirected => exact hname
  | directed hword =>
    refine (Balanced.of_forall fun c hc => ?_).append (hspace _ hname)
    have hletter := isAlphanum_of_direction hword c hc
    have hquote : isQuote c = false := by
      rw [← Bool.not_eq_true, isQuote_iff]
      rintro (rfl | rfl | rfl) <;> cases hletter
    refine ⟨hquote, ?_, ?_, ?_⟩ <;>
    · rintro rfl
      cases hletter

/-- A declaration is read as the parameter it declares. -/
theorem Declares.parameter? (h : Declares p d) (hp : IsDeclarable p) :
    parameter? d = some p := by
  obtain ⟨ws, hne, hws, htype⟩ := hp.type_words
  obtain ⟨w, ws, rfl⟩ := List.exists_cons_of_ne_nil hne
  have hrest : words (p.name.toList ++ ' ' :: p.dataType.toList) = p.name.toList :: w :: ws := by
    rw [words_append_blank hp.name_word rfl, htype, words_intercalate hws]
  unfold Sql.parameter?
  cases h with
  | @directed word hword =>
    have hmode : ParameterMode.ofWord? word = some p.mode := ofWord?_eq_some_iff.2 hword
    rw [words_append_blank (isWord_of_direction hword) rfl, hrest]
    simp only [hmode]
    rw [parameterOf_eq hp htype]
  | undirected hmode hname =>
    have hnone := ofWord?_eq_none_iff.2 hname
    rw [hrest]
    simp only [hnone]
    rw [← hmode, parameterOf_eq hp htype]

end Declares

section Declarations

variable {ps : List Parameter} {ds : List Text} (h : List.Forall₂ Declares ps ds)
  (hps : ∀ p ∈ ps, IsDeclarable p)
include h hps

theorem balanced_of_declares : ∀ d ∈ ds, Balanced false d := by
  induction h with
  | nil => exact fun d hd => by cases hd
  | cons hd _ ih =>
    intro e he
    rcases List.mem_cons.1 he with rfl | he
    · exact hd.balanced (hps _ List.mem_cons_self)
    · exact ih (fun p hp => hps p (List.mem_cons_of_mem _ hp)) e he

theorem filterMap_of_declares : ds.filterMap parameter? = ps := by
  induction h with
  | nil => rfl
  | cons hd _ ih =>
    rw [List.filterMap_cons, hd.parameter? (hps _ List.mem_cons_self)]
    exact congrArg _ (ih fun p hp => hps p (List.mem_cons_of_mem _ hp))

theorem parameterList_of_declares {n : Text} (hn : '\x60' ∉ n) (body : Text) :
    parameterList (createProcedure n ++ (Statement.commaList ds ++ ')' :: body)) =
      some (Statement.commaList ds) := by
  have hbalanced : Balanced true (Statement.commaList ds) :=
    Balanced.commaList fun d hd => (balanced_of_declares h hps d hd).with_commas
  unfold parameterList
  rw [behindOpening_createProcedure hn, Option.bind_some,
    untilClosing_passes.balanced hbalanced fun _ => trivial]
  show some (Statement.commaList ds ++ []) = _
  rw [List.append_nil]

/-- **The parameters of a procedure are those it declares.** Whatever its types hold in parentheses
and quotes, whether directions are written out or not, and whatever follows the list. -/
theorem parameters_of_declares {n : Text} (hn : '\x60' ∉ n) (body : Text) :
    parameters (createProcedure n ++ (Statement.commaList ds ++ ')' :: body)) = ps := by
  have hread := filterMap_of_declares h hps
  unfold parameters
  rw [parameterList_of_declares h hps hn]
  show (splitTopLevel 0 none (Statement.commaList ds)).filterMap parameter? = ps
  cases ds with
  | nil => exact hread
  | cons d ds =>
    rw [splitTopLevel_commaList (balanced_of_declares h hps), List.filterMap_cons,
      List.filterMap_map]
    simp only [Function.comp_def, parameter?_space]
    rw [← List.filterMap_cons]
    exact hread

end Declarations

/-- Commas and a closing parenthesis in a type, and a name that is a direction. -/
theorem parameters_of_report :
    parameters (createProcedure "report".toList ++ (Statement.commaList
      ["total".toList ++ ' ' :: "DECIMAL(10,2) UNSIGNED".toList,
        "inout".toList ++ ' ' :: ("IN".toList ++ ' ' :: "ENUM('a,b','c)')".toList)] ++
      ')' :: " SELECT COUNT(*) INTO total FROM logs".toList)) =
      [⟨.input, "total", "DECIMAL(10,2) UNSIGNED"⟩, ⟨.both, "IN", "ENUM('a,b','c)')"⟩] := by
  have hplain : ∀ mode : ParameterMode, upperAscii "total".toList ≠ mode.keyword.toList := by
    intro mode
    cases mode <;> decide
  have htotal : IsDeclarable ⟨.input, "total", "DECIMAL(10,2) UNSIGNED"⟩ := by
    refine ⟨by decide, List.all_iff_forall_prop.1 (by decide), ?_, ?_⟩
    · exact ⟨["DECIMAL(10,2)".toList, "UNSIGNED".toList], by decide, by decide, rfl⟩
    · have hname : Balanced false "DECIMAL".toList :=
        .of_forall (List.all_iff_forall_prop.1 (by decide))
      have hsize : Balanced true "10,2".toList :=
        .of_forall (List.all_iff_forall_prop.1 (by decide))
      have hsign : Balanced false " UNSIGNED".toList :=
        .of_forall (List.all_iff_forall_prop.1 (by decide))
      exact hname.append (.nested hsize hsign)
  have hin : IsDeclarable ⟨.both, "IN", "ENUM('a,b','c)')"⟩ := by
    refine ⟨by decide, List.all_iff_forall_prop.1 (by decide), ?_, ?_⟩
    · exact ⟨["ENUM('a,b','c)')".toList], by decide, by decide, rfl⟩
    · have hname : Balanced false "ENUM".toList :=
        .of_forall (List.all_iff_forall_prop.1 (by decide))
      have hvalues : Balanced true "'a,b','c)'".toList :=
        .quoted (u := "a,b".toList) rfl (by decide)
          (.plain rfl (by decide) (by decide) (fun _ => rfl)
            (.quoted (u := "c)".toList) rfl (by decide) .nil))
      exact hname.append (.nested hvalues .nil)
  have hfirst : Declares ⟨.input, "total", "DECIMAL(10,2) UNSIGNED"⟩
      ("total".toList ++ ' ' :: "DECIMAL(10,2) UNSIGNED".toList) := .undirected rfl hplain
  have hsecond : Declares ⟨.both, "IN", "ENUM('a,b','c)')"⟩
      ("inout".toList ++ ' ' :: ("IN".toList ++ ' ' :: "ENUM('a,b','c)')".toList)) :=
    .directed (by decide)
  refine parameters_of_declares (.cons hfirst (.cons hsecond .nil)) ?_ (by decide) _
  intro p hp
  simp only [List.mem_cons, List.not_mem_nil, or_false] at hp
  rcases hp with rfl | rfl
  · exact htotal
  · exact hin

end Sql

end SchemaInstaller
