import Mathlib.Data.Option.Basic
import SchemaInstaller.Proofs.Sql.Sanitize

/-!
# The normal form of sanitized texts

A sanitizer stops where its pass changes nothing. No step of the pass then changes anything
(`Sanitizer.step_eq_of_pass_eq`), so each step has nothing left to do: what takes parts out finds
none, and what writes a header finds only headers written its way. Hence every sanitized text is
`Sanitizer.Normal`, however many parts the earlier passes have brought together.
-/

namespace SchemaInstaller

open Scan Text

/-- All that a rule finds in a text, and replaces, are the given words. -/
def Rule.FindsOnly (rule : Rule) (words : List Text) (t : Text) : Prop :=
  ∀ a b new rest, t = a ++ b → rule a.getLast? b = some (new, rest) → ∃ w ∈ words, b = w ++ rest

theorem Rule.Trivial.findsOnly {rule : Rule} {words : List Text} {t : Text} (h : rule.Trivial t)
    (hwords : ∀ prev u new rest, rule prev u = some (new, rest) → new ∈ words) :
    rule.FindsOnly words t :=
  fun a b new rest hab hmatch => ⟨new, hwords _ _ _ _ hmatch, h a b new rest hab hmatch⟩

namespace Sql

/-! ## Headers -/

/-- The headers that the sanitizers write. -/
def viewHeaders : List Text := ["CREATE VIEW".toList, "CREATE OR REPLACE VIEW".toList]

def routineHeaders : List Text := routineKinds.map routineWords

/-- A place where a header can start. -/
def startsHeader (prev : Option Char) (t : Text) : Bool :=
  wordStart prev && (t.head?.map (sameLetter 'C')).getD false

theorem startsHeader_of_create {prev : Option Char} {t r : Text} (hprev : wordStart prev = true)
    (h : keyword "CREATE" t = some r) : startsHeader prev t = true := by
  unfold startsHeader
  rw [hprev]
  cases t with
  | nil => cases h
  | cons c t =>
    by_cases hc : sameLetter 'C' c = true
    · exact hc
    · have hnone : keyword "CREATE" (c :: t) = none := if_neg hc
      rw [hnone] at h
      cases h

/-- No header starts inside another. -/
theorem startsHeader_inside {w a b : Text} (hw : w ∈ viewHeaders ++ routineHeaders)
    (hab : w = a ++ b) (ha : a ≠ []) (rest : Text) (hb : b ≠ []) :
    startsHeader a.getLast? (b ++ rest) = false := by
  have hinside : ∀ w ∈ viewHeaders ++ routineHeaders, ∀ i < w.length, 0 < i →
      startsHeader (w.take i).getLast? (w.drop i) = false := by decide
  have hplace := hinside w hw a.length
    (by rw [hab, List.length_append]; have := List.length_pos_iff.2 hb; omega)
    (List.length_pos_iff.2 ha)
  rw [hab, List.take_left, List.drop_left] at hplace
  obtain ⟨c, b', rfl⟩ := List.exists_cons_of_ne_nil hb
  exact hplace

/-- A rule that finds headers and writes headers. -/
structure WritesHeaders (rule : Rule) (words : List Text) : Prop where
  starts : ∀ prev t new rest, rule prev t = some (new, rest) → startsHeader prev t = true
  writes : ∀ prev t new rest, rule prev t = some (new, rest) → new ∈ words
  known : words ⊆ viewHeaders ++ routineHeaders

theorem WritesHeaders.apart {rule : Rule} {words : List Text} (h : WritesHeaders rule words) :
    rule.Apart := by
  intro prev new rest hmatch a b hab ha hb
  have hnew := h.known (h.writes _ _ _ _ hmatch)
  cases hinside : rule a.getLast? (b ++ rest) with
  | none => rfl
  | some x =>
    have hstart := h.starts _ _ _ _ hinside
    rw [startsHeader_inside hnew hab ha rest hb] at hstart
    cases hstart

/-- Where a rule that writes headers changes nothing, the headers are written its way. -/
theorem WritesHeaders.findsOnly {rule : Rule} {words : List Text} (h : WritesHeaders rule words)
    (htidies : rule.Tidies) {t : Text} (ht : t.substitute rule = t) : rule.FindsOnly words t :=
  (htidies.trivial h.apart ht).findsOnly h.writes

theorem normalizeHeader_writes : WritesHeaders normalizeHeader routineHeaders where
  starts := by
    intro prev t new rest h
    obtain ⟨_, hprev, h⟩ := Option.bind_eq_some_iff.1 h
    obtain ⟨m, hm, -⟩ := Option.bind_eq_some_iff.1 h
    exact startsHeader_of_create ((Option.guard_eq_some' _).1 hprev) hm
  writes := by
    intro prev t new rest h
    obtain ⟨kind, hkind, -, rfl⟩ := eq_of_normalizeHeader h
    exact List.mem_map_of_mem hkind
  known := List.subset_append_right _ _

theorem plainViewHeader_writes : WritesHeaders plainViewHeader viewHeaders where
  starts := by
    intro prev t new rest h
    obtain ⟨_, hprev, h⟩ := Option.bind_eq_some_iff.1 h
    obtain ⟨m, hm, -⟩ := Option.bind_eq_some_iff.1 h
    exact startsHeader_of_create ((Option.guard_eq_some' _).1 hprev) hm
  writes := by
    intro prev t new rest h
    rcases eq_of_plainViewHeader h with ⟨-, rfl⟩ | ⟨-, rfl⟩
    · exact List.mem_cons_of_mem _ List.mem_cons_self
    · exact List.mem_cons_self
  known := List.subset_append_left _ _

/-! ## Blanks -/

/-- Where spaces are not collapsed, no two stand side by side. -/
theorem isSpace_false_of_absent {t : Text} (h : collapseSpaces.Absent t) {c d : Char}
    (hcd : [c, d] <:+: t) (hc : isSpace c = true) : isSpace d = false := by
  obtain ⟨a, b, rfl⟩ := hcd
  have hnone := h a ([c, d] ++ b) (List.append_assoc a [c, d] b)
  cases hd : isSpace d with
  | false => rfl
  | true =>
    have hsome : collapseSpaces a.getLast? ([c, d] ++ b) = some ([' '], b.dropWhile isSpace) := by
      simp [collapseSpaces, one, many1, hc, hd]
    rw [hsome] at hnone
    cases hnone

theorem trimStart_eq_of_trim_eq {t : Text} (h : t.trim = t) : t.trimStart = t := by
  have hlen : t.trim.length ≤ t.trimStart.length := by
    unfold trim trimEnd
    rw [List.length_reverse]
    exact Nat.le_trans (List.dropWhile_sublist _).length_le (Nat.le_of_eq List.length_reverse)
  rw [h] at hlen
  exact t.trimStart_sublist.eq_of_length_le hlen

/-- A trimmed text has no blank at its front. -/
theorem isBlank_head_of_trim_eq {t : Text} (h : t.trim = t) {c : Char} (hc : t.head? = some c) :
    isBlank c = false := by
  have hfront := List.head?_dropWhile_not isBlank t
  have hstart : t.dropWhile isBlank = t := trimStart_eq_of_trim_eq h
  rw [hstart, hc] at hfront
  exact hfront

/-- Nor at its back. -/
theorem isBlank_getLast_of_trim_eq {t : Text} (h : t.trim = t) {c : Char}
    (hc : t.getLast? = some c) : isBlank c = false := by
  have hback := List.head?_dropWhile_not isBlank t.trimStart.reverse
  rw [← h] at hc
  unfold trim trimEnd at hc
  rw [List.getLast?_reverse] at hc
  rw [hc] at hback
  exact hback

/-! ## The normal form -/

/-- What every sanitized text is free of: versioned comments, owners, and blanks that do not
count. -/
structure Clean (t : Text) : Prop where
  comments : versionedComment.Absent t
  owners : dropDefiner.Absent t
  spaces : ∀ c d, [c, d] <:+: t → isSpace c = true → isSpace d = false
  front : ∀ c, t.head? = some c → isBlank c = false
  back : ∀ c, t.getLast? = some c → isBlank c = false

/-- The normal form that each sanitizer gives a text. -/
def Sanitizer.Normal : Sanitizer → Text → Prop
  | definer, t => Clean t
  | routine, t => Clean t ∧ dropDefinerRights.Absent t ∧ dropDelimiterLine.Absent t ∧
      normalizeHeader.FindsOnly routineHeaders t
  | view, t => Clean t ∧ plainViewHeader.FindsOnly viewHeaders t

theorem Clean.of_steps {t : Text} (hcomment : t.substitute versionedComment = t)
    (hdefiner : t.substitute dropDefiner = t) (hspaces : t.substitute collapseSpaces = t)
    (htrim : t.trim = t) : Clean t where
  comments := versionedComment_tidies.absent versionedComment_shortens hcomment
  owners := dropDefiner_tidies.absent dropDefiner_shortens hdefiner
  spaces _ _ := isSpace_false_of_absent (collapseSpaces_tidies.absent collapseSpaces_shortens hspaces)
  front _ := isBlank_head_of_trim_eq htrim
  back _ := isBlank_getLast_of_trim_eq htrim

/-- A text that a pass leaves alone is in normal form. -/
theorem Sanitizer.normal_of_pass_eq (s : Sanitizer) {t : Text} (h : s.pass t = t) : s.Normal t := by
  have hsteps := s.step_eq_of_pass_eq h
  cases s with
  | definer =>
    simp only [steps, List.forall_mem_cons] at hsteps
    obtain ⟨hcomment, hdefiner, hspaces, htrim, -⟩ := hsteps
    exact Clean.of_steps hcomment hdefiner hspaces htrim
  | routine =>
    simp only [steps, List.forall_mem_cons] at hsteps
    obtain ⟨hcomment, hdefiner, hrights, hheader, hline, hspaces, htrim, -⟩ := hsteps
    exact ⟨Clean.of_steps hcomment hdefiner hspaces htrim,
      dropDefinerRights_tidies.absent dropDefinerRights_shortens hrights,
      dropDelimiterLine_tidies.absent dropDelimiterLine_shortens hline,
      normalizeHeader_writes.findsOnly normalizeHeader_tidies hheader⟩
  | view =>
    simp only [steps, List.forall_mem_cons] at hsteps
    obtain ⟨hcomment, hdefiner, hspaces, htrim, hheader, -⟩ := hsteps
    exact ⟨Clean.of_steps hcomment hdefiner hspaces htrim,
      plainViewHeader_writes.findsOnly plainViewHeader_tidies hheader⟩

/-- Every sanitizer brings every text that is not blank into its normal form. -/
theorem Sanitizer.normal_sanitize (s : Sanitizer) {t : Text} (h : t.isBlankOnly = false) :
    s.Normal (s.sanitize t) := by
  obtain ⟨n, -, hsettles⟩ := s.settles_sanitize h
  exact s.normal_of_pass_eq hsettles.pass_eq

/-- A view in a comment, with its owner in another comment inside: unwrapping the outer one leaves
the inner one for the next pass. -/
def nestedView : Text :=
  ("/*!50001 create /*!50013 algorithm=merge definer = `root`@`%` sql security definer */ view v " ++
    "as  select 1 */").toList

theorem nestedView_normal : nestedView.isBlankOnly = false ∧
    Sanitizer.view.sanitize nestedView = "CREATE VIEW v as select 1".toList ∧
      Sanitizer.view.Normal (Sanitizer.view.sanitize nestedView) :=
  ⟨by decide, by decide +kernel, Sanitizer.view.normal_sanitize (by decide)⟩

end Sql

end SchemaInstaller
