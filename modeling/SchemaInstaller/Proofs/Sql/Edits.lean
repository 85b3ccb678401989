import SchemaInstaller.Proofs.Sql.NormalForm
import SchemaInstaller.Proofs.Text.Edits
import SchemaInstaller.Proofs.Text.Passages

/-!
# What sanitizers do to a text

Every step of a sanitizer is a chain of edits: parts are left out, blanks written for blanks, and the
headers of routines or views written in capitals. So a sanitizer adds nothing that can be seen,
repeats nothing and keeps the order (`Sanitizer.sanitize_edits`). In a text that has no mark of a
versioned comment and holds neither the word `DEFINER` nor the word `DELIMITER` there is nothing to
leave out, and as blanks and capitals bring no such word together there never will be, however often
the pass is repeated.
-/

namespace SchemaInstaller

open Scan Text

/-! ## Scans that find a word -/

/-- What the scan takes is the word in some case, up to edits. -/
def Scan.Writes (s : Scan) (lossy : Bool) (w : Text) : Prop :=
  ∀ t r, s t = some r → ∃ x z, t = x ++ r ∧ upperAscii z = w ∧
    ∀ a b, Edits lossy [] (a ++ (x ++ b)) (a ++ (z ++ b))

namespace Scan.Writes

variable {s f : Scan} {lossy : Bool} {v w : Text}

theorem bind (hs : s.Writes lossy v) (hf : f.Writes lossy w) :
    Scan.Writes (fun t => s t >>= f) lossy (v ++ w) := by
  intro t r h
  obtain ⟨m, hm, hr⟩ := Option.bind_eq_some_iff.1 h
  obtain ⟨x, z, rfl, rfl, hx⟩ := hs t m hm
  obtain ⟨x', z', rfl, rfl, hx'⟩ := hf m r hr
  refine ⟨x ++ x', z ++ z', (List.append_assoc x x' r).symm, upperAscii_append z z', fun a b => ?_⟩
  have hfirst := hx a (x' ++ b)
  have hsecond := hx' (a ++ z) b
  simp only [List.append_assoc] at hsecond ⊢
  exact hfirst.trans hsecond

theorem pure : Scan.Writes some lossy [] := by
  intro t r h
  cases h
  exact ⟨[], [], rfl, rfl, fun a b => .refl⟩

/-- A pattern behind another that may be missing and is left out. -/
theorem after_optional (hs : s.Writes true w) (hf : Scan.Tidies f v) :
    Scan.Writes (fun t => s (Scan.optional f t)) true w := by
  intro t r h
  have hscan : s ((f t).getD t) = some r := h
  cases hft : f t with
  | none =>
    rw [hft] at hscan
    exact hs t r hscan
  | some m =>
    rw [hft] at hscan
    obtain ⟨y, rfl, -⟩ := hf t m hft
    obtain ⟨x, z, rfl, hz, hx⟩ := hs m r hscan
    refine ⟨y ++ x, z, (List.append_assoc y x r).symm, hz, fun a b => ?_⟩
    rw [List.append_assoc]
    exact .head (.leaveOut rfl a y (x ++ b)) (hx a b)

end Scan.Writes

namespace Scan

variable {lossy : Bool}

/-- A capital that no character but its small letter stands for. -/
def isPlainCapital (c : Char) : Bool := c.isUpper && c != 'S' && c != 'K'

theorem eq_append_of_letters {k t r : Text} (hk : k.all isPlainCapital = true)
    (h : letters k t = some r) : ∃ x, t = x ++ r ∧ upperAscii x = k := by
  induction k generalizing t with
  | nil =>
    cases h
    exact ⟨[], rfl, rfl⟩
  | cons d k ih =>
    cases t with
    | nil => cases h
    | cons c t =>
      rw [List.all_cons, Bool.and_eq_true] at hk
      simp only [isPlainCapital, Bool.and_eq_true, bne_iff_ne] at hk
      obtain ⟨⟨⟨hupper, hS⟩, hK⟩, hrest⟩ := hk
      rw [letters] at h
      split at h
      · next hc =>
        obtain ⟨x, rfl, hx⟩ := ih (by simpa only [isPlainCapital] using hrest) h
        refine ⟨c :: x, rfl, ?_⟩
        show c.toUpper :: upperAscii x = d :: k
        rw [toUpper_of_sameLetter hupper hS hK hc, hx]
      · cases h

theorem eq_append_of_keyword {w : String} {t r : Text} (hw : w.toList.all isPlainCapital = true)
    (h : keyword w t = some r) : ∃ x, t = x ++ r ∧ upperAscii x = w.toList :=
  eq_append_of_letters hw h

theorem eq_append_of_many1 {p : Char → Bool} {t r : Text} (h : many1 p t = some r) :
    ∃ x, t = x ++ r ∧ x ≠ [] ∧ x.all p = true := by
  cases t with
  | nil => cases h
  | cons c t =>
    rw [many1] at h
    split at h
    · next hc =>
      cases h
      refine ⟨c :: t.takeWhile p, ?_, List.cons_ne_nil _ _, ?_⟩
      · rw [List.cons_append, List.takeWhile_append_dropWhile]
      · rw [List.all_cons, hc, List.all_takeWhile]
        rfl
    · cases h

theorem keyword_writes {w : String} {k : Text} (hw : w.toList = k)
    (hk : k.all isPlainCapital = true) : (keyword w).Writes lossy k := by
  intro t r h
  obtain ⟨x, rfl, hx⟩ := eq_append_of_keyword (hw ▸ hk) h
  exact ⟨x, x, rfl, hx.trans hw, fun a b => .refl⟩

theorem blanks1_writes : blanks1.Writes lossy [' '] := by
  intro t r h
  obtain ⟨x, rfl, hne, hx⟩ := eq_append_of_many1 h
  exact ⟨x, [' '], rfl, rfl, fun a b => .single (.respace a b hx hne rfl nofun)⟩

theorem eq_of_wordEnd {t r : Text} (h : wordEnd t = some r) :
    r = t ∧ wordStart r.head? = true := by
  unfold wordEnd at h
  split at h
  · cases h
  · next hend =>
    cases h
    exact ⟨rfl, by simpa [wordStart] using hend⟩

theorem wordEnd_writes : wordEnd.Writes lossy [] := by
  intro t r h
  obtain ⟨rfl, -⟩ := eq_of_wordEnd h
  exact ⟨[], [], rfl, rfl, fun a b => .refl⟩

end Scan

/-! ## Rules -/

/-- Whether a word begins at a place. -/
abbrev KeepsEdge (t u : Text) : Prop := wordStart t.head? = true → wordStart u.head? = true

variable {rule : Rule} {headers : List Text}

/-- A rule that leaves characters out. -/
theorem Rule.edits_of_sublist (h : rule.Replaces fun old new => new.Sublist old) :
    rule.Edits true headers fun _ _ => True := by
  intro a t new rest u hmatch _
  obtain ⟨old, -, rfl, hsub⟩ := h _ _ _ _ hmatch
  exact ⟨old, rfl, Text.edits_of_sublist hsub headers a u⟩

theorem Rule.LeavesOut.edits {s : Option Char → Scan} {w : Text} (h : rule.LeavesOut s)
    (hs : ∀ prev, Scan.Tidies (s prev) w) (hw : w ≠ []) :
    rule.Edits true headers fun _ _ => True := by
  refine Rule.edits_of_sublist fun prev t new rest hmatch => ?_
  obtain ⟨old, hne, rfl, -⟩ := h.tidies hs hw prev t new rest hmatch
  exact ⟨old, hne, rfl, (h.eq_some hmatch).2 ▸ List.nil_sublist old⟩

/-- A rule that finds headers in some case and writes them in capitals. -/
theorem Rule.edits_of_writes {lossy : Bool}
    (h : ∀ prev t new rest, rule prev t = some (new, rest) →
      ∃ s : Scan, s.Writes lossy new ∧ s t = some rest ∧ new ∈ headers ∧ wordStart prev = true ∧
        wordStart rest.head? = true) :
    rule.Edits lossy headers KeepsEdge := by
  intro a t new rest u hmatch hedge
  obtain ⟨s, hs, hscan, hnew, hprev, hrest⟩ := h _ _ _ _ hmatch
  obtain ⟨x, z, rfl, rfl, hx⟩ := hs t rest hscan
  refine ⟨x, rfl, (Text.Edits.imp id (List.nil_subset headers) (hx a u)).tail ?_⟩
  exact .capitalize a u hnew hprev (hedge hrest)

namespace Sql

/-- A header begins with a letter. -/
theorem wordStart_of_startsHeader {prev : Option Char} {t : Text}
    (h : startsHeader prev t = true) : wordStart t.head? = false := by
  unfold startsHeader at h
  cases t with
  | nil => simp at h
  | cons c t =>
    have hc : sameLetter 'C' c = true := (Bool.and_eq_true_iff.1 h).2
    have hupper : c.toUpper = 'C' := toUpper_of_sameLetter rfl (by decide) (by decide) hc
    have hword : isWordChar c = true := by
      rw [← isWordChar_toUpper, hupper]
      rfl
    exact congrArg not hword

/-- No header is written where a word does not begin. -/
theorem WritesHeaders.keepsEdge {words : List Text} (h : WritesHeaders rule words)
    {prev : Option Char} {t u : Text} (hsweep : Sweep rule prev t u) : KeepsEdge t u := by
  intro ht
  cases hsweep with
  | nil => rfl
  | keep => exact ht
  | change _ hmatch _ =>
    rw [wordStart_of_startsHeader (h.starts _ _ _ _ hmatch)] at ht
    cases ht

theorem versionedComment_edits : versionedComment.Edits true headers fun _ _ => True := by
  refine Rule.edits_of_sublist fun prev t body rest h => ?_
  obtain ⟨start, mark, rfl, hne⟩ := eq_of_versionedComment h
  refine ⟨start ++ body ++ mark, by simp [hne], rfl, ?_⟩
  exact (List.sublist_append_right start body).trans (List.sublist_append_left _ mark)

theorem dropDefiner_edits : dropDefiner.Edits true headers fun _ _ => True :=
  dropDefiner_leavesOut.edits definerClause_tidies nofun

theorem dropDefinerRights_edits : dropDefinerRights.Edits true headers fun _ _ => True :=
  dropDefinerRights_leavesOut.edits definerRights_tidies nofun

theorem dropDelimiterLine_edits : dropDelimiterLine.Edits true headers fun _ _ => True :=
  dropDelimiterLine_leavesOut.edits delimiterLine_tidies nofun

theorem isBlankOnly_of_isSpace {x : Text} (h : x.all isSpace = true) : x.isBlankOnly = true :=
  List.all_eq_true.2 fun c hc => isBlank_of_isSpace (List.all_eq_true.1 h c hc)

theorem collapseSpaces_edits {lossy : Bool} :
    collapseSpaces.Edits lossy headers fun _ _ => True := by
  intro a t new rest u h _
  obtain ⟨m, hm, h⟩ := Option.bind_eq_some_iff.1 h
  obtain ⟨m', hm', h⟩ := Option.bind_eq_some_iff.1 h
  cases h
  obtain ⟨c, rfl, hc⟩ := eq_cons_of_one hm
  obtain ⟨x, rfl, -, hx⟩ := eq_append_of_many1 hm'
  have hspaces : (c :: x).all isSpace = true := by rw [List.all_cons, hc, hx]; rfl
  exact ⟨c :: x, rfl, .single
    (.respace a u (isBlankOnly_of_isSpace hspaces) (List.cons_ne_nil c x) rfl nofun)⟩

theorem create_writes {lossy : Bool} :
    (keyword "CREATE").Writes lossy ['C', 'R', 'E', 'A', 'T', 'E'] := keyword_writes rfl rfl

theorem routineHeader_writes {lossy : Bool} {kind : String}
    (h : kind.toList.all isPlainCapital = true) :
    (routineHeader kind).Writes lossy (routineWords kind) := by
  have hkind : (keyword kind).Writes lossy kind.toList := keyword_writes rfl h
  have hwrites := create_writes.bind (blanks1_writes.bind (hkind.bind wordEnd_writes))
  rw [List.append_nil] at hwrites
  unfold routineWords
  rw [String.toList_append]
  exact hwrites

theorem normalizeHeader_edits {lossy : Bool} :
    normalizeHeader.Edits lossy routineHeaders KeepsEdge := by
  refine Rule.edits_of_writes fun prev t new rest h => ?_
  have hprev := (Bool.and_eq_true_iff.1 (normalizeHeader_writes.starts _ _ _ _ h)).1
  obtain ⟨kind, hkind, hscan, rfl⟩ := eq_of_normalizeHeader h
  have hplain : ∀ k ∈ routineKinds, k.toList.all isPlainCapital = true := by decide
  refine ⟨_, routineHeader_writes (hplain kind hkind), hscan, List.mem_map_of_mem hkind, hprev, ?_⟩
  obtain ⟨_, -, hscan⟩ := Option.bind_eq_some_iff.1 hscan
  obtain ⟨_, -, hscan⟩ := Option.bind_eq_some_iff.1 hscan
  obtain ⟨_, -, hscan⟩ := Option.bind_eq_some_iff.1 hscan
  exact (eq_of_wordEnd hscan).2

theorem orReplace_writes : orReplace.Writes true "OR REPLACE ".toList := by
  have hor : (keyword "OR").Writes true ['O', 'R'] := keyword_writes rfl rfl
  have hreplace : (keyword "REPLACE").Writes true ['R', 'E', 'P', 'L', 'A', 'C', 'E'] :=
    keyword_writes rfl rfl
  exact hor.bind (blanks1_writes.bind (hreplace.bind blanks1_writes))

theorem viewHeader_writes {replace : Scan} {w : Text} (h : replace.Writes true w) :
    (viewHeader replace).Writes true ("CREATE ".toList ++ w ++ "VIEW".toList) := by
  have hview : (keyword "VIEW").Writes true ['V', 'I', 'E', 'W'] := keyword_writes rfl rfl
  have hclauses := (hview.after_optional securityClause_tidies).after_optional
    algorithmClause_tidies
  have hwrites := create_writes.bind (blanks1_writes.bind (h.bind (hclauses.bind wordEnd_writes)))
  rw [List.append_nil, ← List.append_assoc, ← List.append_assoc] at hwrites
  exact hwrites

theorem wordStart_of_viewHeader {replace : Scan} {t rest : Text}
    (h : viewHeader replace t = some rest) : wordStart rest.head? = true := by
  obtain ⟨_, -, h⟩ := Option.bind_eq_some_iff.1 h
  obtain ⟨_, -, h⟩ := Option.bind_eq_some_iff.1 h
  obtain ⟨_, -, h⟩ := Option.bind_eq_some_iff.1 h
  obtain ⟨_, -, h⟩ := Option.bind_eq_some_iff.1 h
  exact (eq_of_wordEnd h).2

theorem plainViewHeader_edits : plainViewHeader.Edits true viewHeaders KeepsEdge := by
  refine Rule.edits_of_writes fun prev t new rest h => ?_
  have hprev := (Bool.and_eq_true_iff.1 (plainViewHeader_writes.starts _ _ _ _ h)).1
  have hnew := plainViewHeader_writes.writes _ _ _ _ h
  rcases eq_of_plainViewHeader h with ⟨hscan, rfl⟩ | ⟨hscan, rfl⟩
  · exact ⟨_, viewHeader_writes orReplace_writes, hscan, hnew, hprev,
      wordStart_of_viewHeader hscan⟩
  · exact ⟨_, viewHeader_writes Scan.Writes.pure, hscan, hnew, hprev,
      wordStart_of_viewHeader hscan⟩

/-! ## Passes -/

namespace Sanitizer

/-- The headers that a sanitizer writes in capitals. -/
def headerWords : Sanitizer → List Text
  | definer => []
  | routine => routineHeaders
  | view => viewHeaders

theorem step_edits (s : Sanitizer) : ∀ f ∈ s.steps, ∀ t, Edits true s.headerWords t (f t) := by
  have hcomment (hs : List Text) (t : Text) : Edits true hs t (t.substitute versionedComment) :=
    versionedComment_edits.substitute_anywhere versionedComment_tidies t
  have howner (hs : List Text) (t : Text) : Edits true hs t (t.substitute dropDefiner) :=
    dropDefiner_edits.substitute_anywhere dropDefiner_tidies t
  have hspaces (hs : List Text) (t : Text) : Edits true hs t (t.substitute collapseSpaces) :=
    collapseSpaces_edits.substitute_anywhere collapseSpaces_tidies t
  have htrim (hs : List Text) (t : Text) : Edits true hs t t.trim := (edits_trim hs t).to_lossy
  cases s <;>
    simp only [steps, List.forall_mem_cons, List.not_mem_nil, false_implies, implies_true, and_true]
  · exact ⟨hcomment _, howner _, hspaces _, htrim _⟩
  · exact ⟨hcomment _, howner _,
      dropDefinerRights_edits.substitute_anywhere dropDefinerRights_tidies,
      normalizeHeader_edits.substitute normalizeHeader_writes.keepsEdge normalizeHeader_tidies,
      dropDelimiterLine_edits.substitute_anywhere dropDelimiterLine_tidies, hspaces _, htrim _⟩
  · exact ⟨hcomment _, howner _, hspaces _, htrim _,
      plainViewHeader_edits.substitute plainViewHeader_writes.keepsEdge plainViewHeader_tidies⟩

/-- What every step keeps, a sanitizer keeps. -/
theorem sanitize_induct (s : Sanitizer) {p : Text → Prop}
    (hsteps : ∀ f ∈ s.steps, ∀ u, p u → p (f u)) {t : Text} (ht : p t) : p (s.sanitize t) := by
  have hpass : ∀ u, p u → p (s.pass u) := by
    intro u hu
    rw [pass_eq_foldl]
    exact List.foldlRecOn s.steps _ hu fun v hv f hf => hsteps f hf v hv
  cases hblank : t.isBlankOnly with
  | true =>
    rw [s.sanitize_of_isBlankOnly hblank]
    exact ht
  | false =>
    obtain ⟨n, -, hsettles⟩ := s.settles_sanitize hblank
    exact hsettles.induct hpass ht

end Sanitizer

/-! ## Texts in which there is nothing to leave out -/

/-- A text without the mark of a versioned comment and without the two words. -/
structure Unmarked (t : Text) : Prop where
  comment : ¬"/*!".toList <:+: t
  definer : ¬HoldsWord "DEFINER".toList t
  delimiter : ¬HoldsWord "DELIMITER".toList t

/-- Edits that leave nothing out bring no mark together. -/
theorem Unmarked.of_edits {t u : Text} (ht : Unmarked t) (h : Edits false headers t u) :
    Unmarked u where
  comment hu := by
    have hoccurs := h.occurs isEdge_true (by decide) rfl (occurs_of_isInfix hu rfl)
    exact ht.comment (isInfix_of_occurs hoccurs rfl)
  definer hu := ht.definer (h.occurs isEdge_wordStart (by decide) rfl hu)
  delimiter hu := ht.delimiter (h.occurs isEdge_wordStart (by decide) rfl hu)

theorem versionedComment_absent {t : Text} (ht : Unmarked t) : versionedComment.Absent t := by
  rintro a b rfl
  cases hmatch : versionedComment a.getLast? b with
  | none => rfl
  | some x =>
    obtain ⟨m, hm, -⟩ := Option.bind_eq_some_iff.1 hmatch
    obtain ⟨u, rfl, -⟩ := literal_tidies _ _ _ hm
    have hmark := List.isPrefixOf?_eq_some_iff_append_eq.1 hm
    exact absurd ⟨a, m, by rw [List.append_assoc, hmark]⟩ ht.comment

/-- A word in front of an equals sign is complete. -/
theorem wordStart_of_equals {t r : Text} (h : literal ['='] (skipBlanks t) = some r) :
    wordStart t.head? = true := by
  cases t with
  | nil => rfl
  | cons c t =>
    cases hc : isBlank c with
    | true => exact isEdge_wordStart.blank hc
    | false =>
      rw [skipBlanks_of_not_isBlank hc] at h
      obtain rfl : '=' = c := (List.cons.inj (List.isPrefixOf?_eq_some_iff_append_eq.1 h)).1
      rfl

theorem dropDefiner_absent {t : Text} (ht : Unmarked t) : dropDefiner.Absent t := by
  refine dropDefiner_leavesOut.absent ?_
  rintro a b rest rfl hscan
  obtain ⟨_, hprev, hscan⟩ := Option.bind_eq_some_iff.1 hscan
  obtain ⟨m, hm, hscan⟩ := Option.bind_eq_some_iff.1 hscan
  obtain ⟨m', hm', -⟩ := Option.bind_eq_some_iff.1 hscan
  obtain ⟨x, rfl, hx⟩ := eq_append_of_keyword (by decide) hm
  exact absurd ⟨a, x, m, rfl, hx, (Option.guard_eq_some' _).1 hprev, wordStart_of_equals hm'⟩
    ht.definer

theorem dropDefinerRights_absent {t : Text} (ht : Unmarked t) : dropDefinerRights.Absent t := by
  refine dropDefinerRights_leavesOut.absent ?_
  rintro a b rest rfl hscan
  obtain ⟨_, -, hscan⟩ := Option.bind_eq_some_iff.1 hscan
  obtain ⟨m₁, h₁, hscan⟩ := Option.bind_eq_some_iff.1 hscan
  obtain ⟨m₂, h₂, hscan⟩ := Option.bind_eq_some_iff.1 hscan
  obtain ⟨m₃, h₃, hscan⟩ := Option.bind_eq_some_iff.1 hscan
  obtain ⟨m₄, h₄, hscan⟩ := Option.bind_eq_some_iff.1 hscan
  obtain ⟨m₅, h₅, hscan⟩ := Option.bind_eq_some_iff.1 hscan
  obtain ⟨m₆, h₆, -⟩ := Option.bind_eq_some_iff.1 hscan
  obtain ⟨rfl, hend⟩ := eq_of_wordEnd h₆
  obtain ⟨x, rfl, hx⟩ := eq_append_of_keyword (by decide) h₅
  obtain ⟨blanks, rfl, hne, hblanks⟩ := eq_append_of_many1 h₄
  obtain ⟨u₃, rfl, -⟩ := keyword_takes "SECURITY" _ _ h₃
  obtain ⟨u₂, rfl, -⟩ := blanks1_tidies _ _ h₂
  obtain ⟨u₁, rfl, -⟩ := keyword_takes "SQL" _ _ h₁
  refine absurd ⟨a ++ u₁ ++ u₂ ++ u₃ ++ blanks, x, m₆, by simp only [List.append_assoc], hx, ?_,
    hend⟩ ht.definer
  rw [List.getLast?_append_of_ne_nil _ hne]
  exact isEdge_wordStart.getLast? hblanks

theorem dropDelimiterLine_absent {t : Text} (ht : Unmarked t) : dropDelimiterLine.Absent t := by
  refine dropDelimiterLine_leavesOut.absent ?_
  rintro a b rest rfl hscan
  obtain ⟨_, hprev, hscan⟩ := Option.bind_eq_some_iff.1 hscan
  obtain ⟨m, hm, hscan⟩ := Option.bind_eq_some_iff.1 hscan
  obtain ⟨m', hm', -⟩ := Option.bind_eq_some_iff.1 hscan
  obtain ⟨x, hb, hx⟩ := eq_append_of_keyword (by decide) hm
  obtain ⟨behind, rfl, hne, hbehind⟩ := eq_append_of_many1 hm'
  refine absurd ⟨a ++ b.takeWhile isSpace, x, behind ++ m', ?_, hx, ?_, ?_⟩ ht.delimiter
  · rw [List.append_assoc, ← hb, List.takeWhile_append_dropWhile]
  · by_cases hspaces : b.takeWhile isSpace = []
    · rw [hspaces, List.append_nil]
      rcases Bool.or_eq_true_iff.1 ((Option.guard_eq_some' _).1 hprev) with h | h
      · rw [Option.isNone_iff_eq_none.1 h]
        rfl
      · rw [eq_of_beq h]
        rfl
    · rw [List.getLast?_append_of_ne_nil _ hspaces]
      exact isEdge_wordStart.getLast? (isBlankOnly_of_isSpace List.all_takeWhile)
  · rw [List.head?_append_of_ne_nil _ hne]
    exact isEdge_wordStart.head? (isBlankOnly_of_isSpace hbehind)

/-- A rule that finds nothing changes nothing. -/
theorem substitute_of_absent {R : Text → Text → Prop} (hreplaces : rule.Replaces R) {t : Text}
    (h : rule.Absent t) : t.substitute rule = t := by
  refine Rule.Trivial.substitute_eq (fun a b new rest hab hmatch => ?_) hreplaces
  rw [h a b hab] at hmatch
  cases hmatch

/-! ## Sanitizers -/

namespace Sanitizer

/-- Where there is nothing to leave out, no step leaves anything out. -/
theorem step_edits_of_unmarked {s : Sanitizer} (hs : s ≠ view) :
    ∀ f ∈ s.steps, ∀ t, Unmarked t → Edits false s.headerWords t (f t) := by
  have hkeep {rule : Rule} (htidies : rule.Tidies) (habsent : ∀ t, Unmarked t → rule.Absent t)
      (headers : List Text) (t : Text) (ht : Unmarked t) :
      Edits false headers t (t.substitute rule) := by
    rw [substitute_of_absent htidies (habsent t ht)]
  have hcomment := hkeep versionedComment_tidies fun t => versionedComment_absent
  have howner := hkeep dropDefiner_tidies fun t => dropDefiner_absent
  have hrights := hkeep dropDefinerRights_tidies fun t => dropDefinerRights_absent
  have hdelimiter := hkeep dropDelimiterLine_tidies fun t => dropDelimiterLine_absent
  have hspaces (headers : List Text) (t : Text) (_ : Unmarked t) :
      Edits false headers t (t.substitute collapseSpaces) :=
    collapseSpaces_edits.substitute_anywhere collapseSpaces_tidies t
  have htrim (headers : List Text) (t : Text) (_ : Unmarked t) : Edits false headers t t.trim :=
    edits_trim headers t
  cases s with
  | view => exact absurd rfl hs
  | definer =>
    simp only [steps, List.forall_mem_cons, List.not_mem_nil, false_implies, implies_true, and_true]
    exact ⟨hcomment _, howner _, hspaces _, htrim _⟩
  | routine =>
    simp only [steps, List.forall_mem_cons, List.not_mem_nil, false_implies, implies_true, and_true]
    exact ⟨hcomment _, howner _, hrights _,
      fun t _ => normalizeHeader_edits.substitute normalizeHeader_writes.keepsEdge
        normalizeHeader_tidies t, hdelimiter _, hspaces _, htrim _⟩

/-- A sanitizer edits a text: it leaves parts out, writes blanks for blanks and capitals in headers of
its kind, so what can be seen of the result is a part of what could be seen of the text, in its
order, but for capitals. The first sanitizer writes no headers and keeps the case. Where there is no
versioned comment and neither the owner nor a delimiter is spoken of, it leaves nothing out, and
neither does the one for routines. -/
theorem sanitize_edits (s : Sanitizer) (t : Text) :
    Edits true s.headerWords t (s.sanitize t) ∧
      (upperAscii (visible (s.sanitize t))).Sublist (upperAscii (visible t)) ∧
      (s = definer → (visible (s.sanitize t)).Sublist (visible t)) ∧
      (Unmarked t → s ≠ view → Edits false s.headerWords t (s.sanitize t) ∧
        upperAscii (visible (s.sanitize t)) = upperAscii (visible t) ∧
        (s = definer → visible (s.sanitize t) = visible t)) := by
  have hupper : ∀ x, upperAscii x ∈ s.headerWords →
      (visible (upperAscii x)).map Char.toUpper = (visible x).map Char.toUpper := by
    intro x _
    rw [visible_upperAscii]
    exact upperAscii_upperAscii (visible x)
  have hsame : s = definer → ∀ x, upperAscii x ∈ s.headerWords →
      (visible (upperAscii x)).map id = (visible x).map id := by
    rintro rfl x hx
    cases hx
  have hedits : Edits true s.headerWords t (s.sanitize t) :=
    s.sanitize_induct (fun f hf u hu => hu.trans (s.step_edits f hf u)) .refl
  refine ⟨hedits, hedits.map_visible_sublist hupper, fun hs => ?_, fun ht hview => ?_⟩
  · have hsub := hedits.map_visible_sublist (hsame hs)
    rw [List.map_id, List.map_id] at hsub
    exact hsub
  · have hkept : Edits false s.headerWords t (s.sanitize t) :=
      s.sanitize_induct (fun f hf u hu =>
        hu.trans (step_edits_of_unmarked hview f hf u (ht.of_edits hu))) .refl
    refine ⟨hkept, hkept.map_visible hupper, fun hs => ?_⟩
    have heq := hkept.map_visible (hsame hs)
    rw [List.map_id, List.map_id] at heq
    exact heq

/-- The definition of a procedure with a header that is not written yet. -/
def spacedProcedure : Text := "create  procedure `p`()  begin end".toList

theorem spacedProcedure_edits : Unmarked spacedProcedure ∧
    Edits false routineHeaders spacedProcedure (sanitizeRoutine spacedProcedure) ∧
    upperAscii (visible (sanitizeRoutine spacedProcedure)) =
      upperAscii (visible spacedProcedure) := by
  have hletters {w : Text} (h : HoldsWord w spacedProcedure) :
      ∀ c ∈ w, c ∈ upperAscii spacedProcedure := by
    obtain ⟨a, x, b, heq, rfl, -, -⟩ := h
    intro c hc
    rw [heq, upperAscii_append, upperAscii_append]
    exact List.mem_append_right _ (List.mem_append_left _ hc)
  have hunmarked : Unmarked spacedProcedure :=
    ⟨by decide +kernel, fun h => absurd (hletters h 'F' (by decide)) (by decide +kernel),
      fun h => absurd (hletters h 'L' (by decide)) (by decide +kernel)⟩
  obtain ⟨hedits, hsame, -⟩ := (sanitize_edits routine spacedProcedure).2.2.2 hunmarked nofun
  exact ⟨hunmarked, hedits, hsame⟩

end Sanitizer

end Sql

end SchemaInstaller
