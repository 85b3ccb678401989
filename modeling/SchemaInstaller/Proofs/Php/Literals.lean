import SchemaInstaller.Proofs.Php.Fragments

/-!
# The literals of a source file

What PHP finds in a generated file is code with quoted texts, heredocs and comments in it.
`literals` lists these, and fails when one is left open or holds an expression that is not one of
the two that generated files leave to PHP. A `Block` is a run of lines that leads from code to code,
together with its literals; methods are blocks of blocks.
-/

namespace SchemaInstaller.Php

open Sql

/-! ## Literals -/

/-- A quoted text, a heredoc or a comment, with what PHP finds in it. -/
structure Literal where
  place : Place
  content : List Event
  deriving Repr, DecidableEq

/-- The expressions that generated files leave to PHP. -/
def ownExpressions : List Text := [prefixExpression, "$charset_collate".toList]

/-- What may be found in a literal: text and own expressions. -/
def Event.isContent : Event → Bool
  | .text _ => true
  | .live e => ownExpressions.contains e
  | _ => false

/-- The literals among events, the first of them perhaps open already. -/
def literalsFrom : Option Literal → List Event → Option (List Literal)
  | none, [] => some []
  | none, .code _ :: es => literalsFrom none es
  | none, .opens p :: es => literalsFrom (some ⟨p, []⟩) es
  | some l, .closes :: es => (literalsFrom none es).map (l :: ·)
  | some l, e :: es =>
    if e.isContent then literalsFrom (some ⟨l.place, l.content ++ [e]⟩) es else none
  | _, _ => none

/-- The literals among events that begin and end in code. -/
def literals (es : List Event) : Option (List Literal) := literalsFrom none es

theorem literalsFrom_append {l? : Option Literal} {a b : List Event} {ls ms : List Literal}
    (ha : literalsFrom l? a = some ls) (hb : literals b = some ms) :
    literalsFrom l? (a ++ b) = some (ls ++ ms) := by
  fun_induction literalsFrom l? a generalizing ls with
  | case1 => cases ha; exact hb
  | case2 c es ih => exact ih ha
  | case3 p es ih => exact ih ha
  | case4 l es ih =>
    obtain ⟨r, hr, rfl⟩ := Option.map_eq_some_iff.1 ha
    rw [List.cons_append, literalsFrom, ih hr]
    rfl
  | case5 l e es hne he ih =>
    rw [List.cons_append, literalsFrom, if_pos he]
    · exact ih ha
    · exact hne
  | case6 => cases ha
  | case7 => cases ha

theorem literals_append {a b : List Event} {ls ms : List Literal} (ha : literals a = some ls)
    (hb : literals b = some ms) : literals (a ++ b) = some (ls ++ ms) := literalsFrom_append ha hb

@[simp] theorem literals_code (t : Text) (es : List Event) :
    literals (t.map .code ++ es) = literals es := by
  induction t with
  | nil => rfl
  | cons c r ih => exact ih

theorem literalsFrom_content {l : Literal} {content : List Event}
    (h : ∀ e ∈ content, e.isContent = true) (es : List Event) :
    literalsFrom (some l) (content ++ es) =
      literalsFrom (some ⟨l.place, l.content ++ content⟩) es := by
  induction content generalizing l with
  | nil => rw [List.append_nil]; rfl
  | cons e r ih =>
    have he := h e List.mem_cons_self
    rw [List.cons_append, literalsFrom, if_pos he, ih fun x hx => h x (List.mem_cons_of_mem e hx),
      List.append_assoc]
    · rfl
    · rintro rfl
      cases he

/-- A literal in front of others. -/
theorem literals_literal (p : Place) {content : List Event}
    (h : ∀ e ∈ content, e.isContent = true) (es : List Event) :
    literals (.opens p :: content ++ .closes :: es) = (literals es).map (⟨p, content⟩ :: ·) := by
  have hopen : literals (.opens p :: (content ++ .closes :: es)) =
      literalsFrom (some ⟨p, []⟩) (content ++ .closes :: es) := rfl
  rw [List.cons_append, hopen, literalsFrom_content h]
  rfl

/-- PHP evaluates nothing but own expressions. -/
theorem mem_ownExpressions {l? : Option Literal} {es : List Event} {ls : List Literal} {e : Text}
    (h : literalsFrom l? es = some ls) (he : .live e ∈ es) : e ∈ ownExpressions := by
  fun_induction literalsFrom l? es generalizing ls with
  | case1 => cases he
  | case2 c es ih => exact ih h (by simpa using he)
  | case3 p es ih => exact ih h (by simpa using he)
  | case4 l es ih =>
    obtain ⟨r, hr, -⟩ := Option.map_eq_some_iff.1 h
    exact ih hr (by simpa using he)
  | case5 l x es hne hx ih =>
    rcases List.mem_cons.1 he with rfl | he
    · simpa [Event.isContent] using hx
    · exact ih h he
  | case6 => cases h
  | case7 => cases h

/-! ## Contents -/

theorem isContent_text (t : Text) : ∀ e ∈ t.map Event.text, e.isContent = true := by
  intro e he
  obtain ⟨c, -, rfl⟩ := List.mem_map.1 he
  rfl

theorem isContent_spliced (clean : Char → Text) (t : Text) :
    ∀ e ∈ spliced clean t, e.isContent = true := by
  intro e he
  obtain ⟨a, -, ha⟩ := List.mem_flatMap.1 he
  cases a with
  | none =>
    obtain rfl : e = .live prefixExpression := by simpa [foundAtom] using ha
    simp [Event.isContent, ownExpressions]
  | some c => exact isContent_text (clean c) e ha

/-! ## Blocks -/

/-- Lines that lead PHP from a state to code, with these literals. -/
def Block (s : State) (lines : List Line) (ls : List Literal) : Prop :=
  ∃ es, Sound s (pieces lines) .code es ∧ literals es = some ls

theorem Sound.lineBreak : Sound .code [.code "\n"] .code [.code '\n'] :=
  Sound.plain String.toList_ofList (by decide) (Sound.nil _)

theorem Sound.endRemark (asked : Bool) :
    Sound (.lineComment asked) [.code "\n"] .code [.closes, .code '\n'] := by
  refine Sound.code (a := [.closes, .code '\n']) ?_ (Sound.nil _)
  rw [String.toList_ofList]
  rfl

/-- Whether a text goes on with a remark whatever follows: it has no line break, and no question
mark that might begin a closing tag. -/
def isRemark (t : Text) : Bool := t.all fun c => !isLineBreak c && c != '?'

/-- Whether a text begins a remark. -/
def beginsRemark : Text → Bool
  | '/' :: '/' :: t => isRemark t
  | _ => false

theorem read_remark {t : Text} (h : isRemark t = true) :
    read (.lineComment false) t = some (.lineComment false, t.map .text) := by
  induction t with
  | nil => rfl
  | cons c r ih =>
    obtain ⟨hc, hr⟩ := Bool.and_eq_true_iff.1 h
    obtain ⟨hbreak, hask⟩ : isLineBreak c = false ∧ c ≠ '?' := by simpa using hc
    have hstep : (State.lineComment false).step c = some (.lineComment false, [.text c]) := by
      simp [State.step, lineCommentStep, hbreak, hask]
    rw [read_cons_of_step r hstep, ih hr]
    rfl

namespace Sound

variable {s : State} {fs : List Fragment} {b : List Event} {t : String}

/-- The beginning of a remark. -/
theorem remark (ht : beginsRemark t.toList = true) (h : Sound (.lineComment false) fs s b) :
    Sound .code (.code t :: fs) s (.opens .lineComment :: (t.toList.drop 2).map .text ++ b) := by
  refine code ?_ h
  generalize t.toList = l at ht
  fun_cases beginsRemark l with
  | case1 r =>
    have hopen : Php.read .code ['/', '/'] = some (.lineComment false, [.opens .lineComment]) := rfl
    exact read_append_of_read hopen (read_remark ht)
  | case2 => rw [beginsRemark] at ht <;> simp_all

/-- More of a remark. -/
theorem remarkText (ht : isRemark t.toList = true) (h : Sound (.lineComment false) fs s b) :
    Sound (.lineComment false) (.code t :: fs) s (t.toList.map .text ++ b) :=
  code (read_remark ht) h

end Sound

namespace Block

variable {s : State} {ls ms : List Line} {found more : List Literal}

theorem nil : Block .code [] [] := ⟨[], Sound.nil _, rfl⟩

theorem append (h : Block s ls found) (k : Block .code ms more) :
    Block s (ls ++ ms) (found ++ more) := by
  obtain ⟨a, ha, hfound⟩ := h
  obtain ⟨b, hb, hmore⟩ := k
  refine ⟨a ++ b, ?_, literals_append hfound hmore⟩
  rw [pieces_append]
  exact ha.append hb

theorem flatMap {α : Type} {lines : α → List Line} {literalsOf : α → List Literal} {l : List α}
    (h : ∀ a ∈ l, Block .code (lines a) (literalsOf a)) :
    Block .code (l.flatMap lines) (l.flatMap literalsOf) := by
  induction l with
  | nil => exact nil
  | cons a r ih =>
    exact (h a List.mem_cons_self).append (ih fun b hb => h b (List.mem_cons_of_mem a hb))

/-- A line in code: indentation adds nothing. -/
theorem line {d : Nat} {fs : List Fragment} {es : List Event}
    (h : Sound .code (fs ++ [.code "\n"]) .code es) (hfound : literals es = some found) :
    Block .code [⟨d, fs⟩] found := by
  have hindent : (List.replicate (4 * d) ' ').all isPlainCode = true := by
    rw [List.all_eq_true]
    intro c hc
    rw [List.eq_of_mem_replicate hc]
    decide
  refine ⟨_, ?_, (literals_code (List.replicate (4 * d) ' ') es).trans hfound⟩
  have hsound := Sound.plain String.toList_ofList hindent h
  simpa [pieces, Line.pieces] using hsound

theorem blank : Block .code [Line.blank] [] := line Sound.lineBreak rfl

/-- A line of code without quotes, comments and heredocs. -/
theorem code (d : Nat) {t : String} {l : Text} (ht : t.toList = l)
    (hl : l.all isPlainCode = true) : Block .code [Line.code d t] [] :=
  line (Sound.plain ht hl Sound.lineBreak) (literals_code l [.code '\n'])

/-- Blocks with blank lines between them. -/
theorem intercalate {α : Type} {lines : α → List Line} {literalsOf : α → List Literal}
    (h : ∀ a, Block .code (lines a) (literalsOf a)) (l : List α) :
    Block .code ([Line.blank].intercalate (l.map lines)) (l.flatMap literalsOf) := by
  induction l with
  | nil => exact nil
  | cons a r ih =>
    cases r with
    | nil => simpa using h a
    | cons b r =>
      rw [List.map_cons, List.map_cons, List.intercalate_cons_cons, List.append_assoc]
      exact (h a).append (blank.append ih)

/-- A statement that is run. -/
theorem runSql (d : Nat) (statement : Text) :
    Block .code [Line.runSql d statement]
      [⟨.doubleQuoted, spliced withoutReturn statement⟩] := by
  refine line (Sound.plain String.toList_ofList (by decide) (Sound.doubleQuoted statement
    (Sound.plain String.toList_ofList (by decide) Sound.lineBreak))) ?_
  rw [literals_code, List.append_assoc, List.singleton_append,
    literals_literal _ (isContent_spliced withoutReturn statement), literals_code]
  rfl

/-- A remark about something from outside. -/
theorem remark (d : Nat) {t : String} (ht : beginsRemark t.toList = true) (name : Text) :
    Block .code [⟨d, [.code t, .comment name]⟩]
      [⟨.lineComment, (t.toList.drop 2 ++ comment name).map .text⟩] := by
  refine line (Sound.remark ht (Sound.lineComment name source_lineBreak (by decide)
    (Sound.endRemark false))) ?_
  have hcontent := isContent_text (t.toList.drop 2 ++ comment name)
  rw [List.map_append] at hcontent ⊢
  rw [List.cons_append, ← List.append_assoc, ← List.cons_append, literals_literal _ hcontent]
  rfl

/-- A remark of own text. -/
theorem ownRemark (d : Nat) {t : String} (ht : beginsRemark t.toList = true) :
    Block .code [Line.code d t] [⟨.lineComment, (t.toList.drop 2).map .text⟩] := by
  refine line (Sound.remark ht (Sound.endRemark false)) ?_
  rw [literals_literal _ (isContent_text _)]
  rfl

end Block

/-! ## Own lines -/

/-- Whether a fragment is code. -/
def Fragment.isCode : Fragment → Bool
  | .code _ => true
  | _ => false

/-- Whether a line is nothing but code. -/
def Line.isOwn (l : Line) : Bool := l.fragments.all Fragment.isCode

/-- The literals of a text that leads to code. -/
def scan (s : State) (t : Text) : Option (List Literal) :=
  (read s t).bind fun x => if x.1 = .code then literals x.2 else none

theorem exists_of_isCode {f : Fragment} (h : f.isCode = true) : ∃ t, f = .code t := by
  cases f with
  | code t => exact ⟨t, rfl⟩
  | _ => cases h

theorem code_of_isOwn {lines : List Line} (h : lines.all Line.isOwn = true) :
    ∀ f ∈ pieces lines, ∃ t, f = .code t := by
  intro f hf
  obtain ⟨l, hl, hf⟩ := List.mem_flatMap.1 hf
  have hown := List.all_eq_true.1 (List.all_eq_true.1 h l hl)
  unfold Line.pieces at hf
  simp only [List.cons_append, List.mem_cons, List.mem_append, List.not_mem_nil, or_false] at hf
  rcases hf with rfl | hf | rfl
  · exact ⟨_, rfl⟩
  · exact exists_of_isCode (hown f hf)
  · exact ⟨_, rfl⟩

/-- Lines of nothing but code have the literals that PHP finds in them. -/
theorem Block.own {s : State} {lines : List Line} {ls : List Literal}
    (hown : lines.all Line.isOwn = true) (h : scan s (lines.flatMap Line.render) = some ls) :
    Block s lines ls := by
  unfold scan at h
  obtain ⟨⟨s', es⟩, hread, hls⟩ := Option.bind_eq_some_iff.1 h
  by_cases hs : s' = .code
  · subst hs
    rw [if_pos rfl] at hls
    refine ⟨es, Sound.of_code (code_of_isOwn hown) ?_, hls⟩
    rw [source_pieces]
    exact hread
  · rw [if_neg hs] at hls
    cases hls

end SchemaInstaller.Php
