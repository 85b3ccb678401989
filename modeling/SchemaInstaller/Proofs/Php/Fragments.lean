import SchemaInstaller.Proofs.Php.Escaping

/-!
# Fragments as PHP reads them

A source file is written fragment by fragment. `Fragment.reading` says what PHP should find for each
where it stands, a text from outside always inside the one place that is meant for it; `Sound` says
that PHP finds just that in the text of the fragments, read as a whole. A file is put together from
sound runs of fragments (`Sound.append`).
-/

namespace SchemaInstaller.Php

open Sql

/-! ## The fragments of a file -/

/-- The fragments of a line, its indentation and its line break included. -/
def Line.pieces (l : Line) : List Fragment :=
  .code (String.ofList (List.replicate (4 * l.depth) ' ')) :: l.fragments ++ [.code "\n"]

/-- The fragments of lines. -/
def pieces (lines : List Line) : List Fragment := lines.flatMap Line.pieces

/-- The source text of fragments. -/
def source (fs : List Fragment) : Text := fs.flatMap Fragment.render

@[simp] theorem source_cons (f : Fragment) (fs : List Fragment) :
    source (f :: fs) = f.render ++ source fs := rfl

theorem source_append (fs gs : List Fragment) : source (fs ++ gs) = source fs ++ source gs :=
  List.flatMap_append

theorem pieces_append (ls ms : List Line) : pieces (ls ++ ms) = pieces ls ++ pieces ms :=
  List.flatMap_append

theorem source_lineBreak : source [.code "\n"] = ['\n'] := by
  rw [source_cons, Fragment.render, String.toList_ofList]
  rfl

theorem source_pieces_line (l : Line) : source l.pieces = l.render := by
  unfold Line.pieces Line.render
  rw [List.cons_append, source_cons, source_append, source_lineBreak, Fragment.render,
    String.toList_ofList, List.append_assoc]
  rfl

/-- The fragments of lines make up the source text of the lines. -/
theorem source_pieces (ls : List Line) : source (pieces ls) = ls.flatMap Line.render := by
  induction ls with
  | nil => rfl
  | cons l r ih =>
    unfold pieces at ih ⊢
    rw [List.flatMap_cons, source_append, source_pieces_line, ih, List.flatMap_cons]

/-! ## What fragments mean -/

/-- What PHP should find for a fragment. Code is read as it is. A name stands in code or in a
comment; a quoted text opens and closes its own quotes; an escaped text stands in a comment or at
the start of a line of a heredoc, and leaves it open. -/
def Fragment.reading : State → Fragment → Step
  | s, .code t => read s t.toList
  | .code, .name t => some (.code, t.toList.map .code)
  | .blockComment _, .name t => some (.blockComment false, t.toList.map .text)
  | .code, .singleQuoted t =>
    some (.code, .opens .singleQuoted :: t.map .text ++ [.closes])
  | .code, .doubleQuoted t =>
    some (.code, .opens .doubleQuoted :: spliced withoutReturn t ++ [.closes])
  | .lineComment _, .comment t => some (.lineComment false, (Php.comment t).map .text)
  | .blockComment _, .comment t => some (.blockComment false, (Php.comment t).map .text)
  | .inside (some label) (.lineStart held rest), .heredoc t =>
    if rest = label then
      some (between (some label) false, held.map .text ++ spliced onOneLine t)
    else none
  | _, _ => none

/-- What PHP should find for fragments one after the other. -/
def readings : State → List Fragment → Step
  | s, [] => some (s, [])
  | s, f :: fs => (f.reading s).bind fun x => (readings x.1 fs).after x.2

/-- PHP finds in the text of the fragments what it should, namely `es`, and is in `s'` then. -/
structure Sound (s : State) (fs : List Fragment) (s' : State) (es : List Event) : Prop where
  read : read s (source fs) = some (s', es)
  readings : readings s fs = some (s', es)

theorem readings_append {s s' s'' : State} {fs gs : List Fragment} {a b : List Event}
    (ha : readings s fs = some (s', a)) (hb : readings s' gs = some (s'', b)) :
    readings s (fs ++ gs) = some (s'', a ++ b) := by
  induction fs generalizing s a with
  | nil =>
    obtain ⟨rfl, rfl⟩ : s = s' ∧ [] = a := by simpa [readings] using ha
    exact hb
  | cons f r ih =>
    rw [readings] at ha
    cases hf : f.reading s with
    | none => rw [hf] at ha; cases ha
    | some x =>
      cases hr : readings x.1 r with
      | none => rw [hf, Option.bind_some, hr] at ha; cases ha
      | some y =>
        rw [hf, Option.bind_some, hr, Step.after_some] at ha
        obtain ⟨hs, rfl⟩ : y.1 = s' ∧ x.2 ++ y.2 = a := by simpa using ha
        have hy : readings x.1 r = some (s', y.2) := by rw [hr, ← hs]
        rw [List.cons_append, readings, hf, Option.bind_some, ih hy, Step.after_some,
          List.append_assoc]

namespace Sound

variable {s s' s'' : State} {fs gs : List Fragment} {a b : List Event}

theorem nil (s : State) : Sound s [] s [] := ⟨rfl, rfl⟩

theorem append (ha : Sound s fs s' a) (hb : Sound s' gs s'' b) :
    Sound s (fs ++ gs) s'' (a ++ b) :=
  ⟨by rw [source_append]; exact read_append_of_read ha.read hb.read,
    readings_append ha.readings hb.readings⟩

/-- A fragment that PHP reads as meant, in front of others. -/
theorem cons {f : Fragment} (hread : Php.read s f.render = some (s', a))
    (hreading : f.reading s = some (s', a)) (h : Sound s' fs s'' b) :
    Sound s (f :: fs) s'' (a ++ b) := by
  constructor
  · rw [source_cons]
    exact read_append_of_read hread h.read
  · rw [Php.readings, hreading, Option.bind_some, h.readings, Step.after_some]

/-! ## Code -/

/-- Code means what PHP reads in it. -/
theorem code {t : String} (ht : Php.read s t.toList = some (s', a)) (h : Sound s' fs s'' b) :
    Sound s (.code t :: fs) s'' (a ++ b) := cons ht ht h

theorem readings_eq_read (hfs : ∀ f ∈ fs, ∃ t, f = .code t) (s : State) :
    Php.readings s fs = Php.read s (source fs) := by
  induction fs generalizing s with
  | nil => rfl
  | cons f r ih =>
    obtain ⟨t, rfl⟩ := hfs f List.mem_cons_self
    have hr := ih fun g hg => hfs g (List.mem_cons_of_mem _ hg)
    rw [source_cons, read_append, Php.readings]
    simp only [hr]
    rfl

/-- Fragments that are all code mean what PHP reads in them. -/
theorem of_code (hfs : ∀ f ∈ fs, ∃ t, f = .code t) (h : Php.read s (source fs) = some (s', a)) :
    Sound s fs s' a := ⟨h, by rw [readings_eq_read hfs, h]⟩

/-! ## Quoted texts -/

theorem singleQuoted (t : Text) (h : Sound .code fs s' b) :
    Sound .code (.singleQuoted t :: fs) s'
      ((.opens .singleQuoted :: t.map .text ++ [.closes]) ++ b) := by
  refine cons ?_ rfl h
  have hopen : State.code.step '\x27' = some (.single false, [.opens .singleQuoted]) := rfl
  rw [Fragment.render, List.cons_append, read_cons_of_step _ hopen,
    read_append_of_read (read_singleQuoted t) rfl]
  rfl

theorem doubleQuoted (t : Text) (h : Sound .code fs s' b) :
    Sound .code (.doubleQuoted t :: fs) s'
      ((.opens .doubleQuoted :: spliced withoutReturn t ++ [.closes]) ++ b) := by
  refine cons ?_ rfl h
  have hopen : State.code.step '\x22' = some (.inside none .plain, [.opens .doubleQuoted]) := rfl
  rw [Fragment.render, List.cons_append, read_cons_of_step _ hopen, read_doubleQuoted]
  rfl

/-! ## Escaped texts in front of code -/

/-- An escaped text in a comment that the line ends, unless the next character may end it. -/
theorem lineComment (t : Text) {c : Char} {r : Text} (hr : source fs = c :: r) (hc : c ≠ '>')
    (h : Sound (.lineComment false) fs s' b) :
    Sound (.lineComment false) (.comment t :: fs) s' ((comment t).map .text ++ b) := by
  constructor
  · rw [source_cons, hr, Fragment.render, read_lineComment t hc, ← hr, h.read, Step.after_some]
  · rw [Php.readings, Fragment.reading, Option.bind_some, h.readings, Step.after_some]

/-- An escaped text in a comment between marks, unless the next character may end it. -/
theorem blockComment (t : Text) {c : Char} {r : Text} (hr : source fs = c :: r) (hc : c ≠ '/')
    (h : Sound (.blockComment false) fs s' b) :
    Sound (.blockComment false) (.comment t :: fs) s' ((comment t).map .text ++ b) := by
  constructor
  · rw [source_cons, hr, Fragment.render, read_blockComment t hc, ← hr, h.read, Step.after_some]
  · rw [Php.readings, Fragment.reading, Option.bind_some, h.readings, Step.after_some]

/-- An escaped text at the start of a line of a heredoc. It must not begin as the label does, and no
expression may begin behind it. -/
theorem heredoc {label held t u r : Text} {c d e : Char} {l : Text} (hlabel : label = e :: l)
    (ht : Php.heredoc t = d :: u) (hd : d ≠ e ∧ d ≠ ' ' ∧ d ≠ '\t') (hr : source fs = c :: r)
    (hc : c ≠ '$') (h : Sound (between (some label) false) fs s' b) :
    Sound (.inside (some label) (.lineStart held label)) (.heredoc t :: fs) s'
      (held.map .text ++ spliced onOneLine t ++ b) := by
  constructor
  · have hadds := (adds_heredoc label t).read_append_cons hc r
    rw [← hr, h.read, Step.after_some, ht, List.cons_append] at hadds
    rw [source_cons, Fragment.render, ht, List.cons_append,
      read_lineStart hlabel hd.1 hd.2.1 hd.2.2, hadds, Step.after_some, List.append_assoc]
  · rw [Php.readings, Fragment.reading, if_pos rfl, Option.bind_some, h.readings, Step.after_some]

end Sound

/-! ## Plain code and names -/

/-- A character of code that means only itself. -/
def isPlainCode (c : Char) : Bool := State.code.step c == some (.code, [.code c])

theorem read_code_of_isPlainCode {t : Text} (h : ∀ c ∈ t, isPlainCode c = true) :
    read .code t = some (.code, t.map .code) := by
  induction t with
  | nil => rfl
  | cons c r ih =>
    have hc : State.code.step c = some (.code, [.code c]) := eq_of_beq (h c List.mem_cons_self)
    rw [read_cons_of_step r hc, ih fun d hd => h d (List.mem_cons_of_mem c hd)]
    rfl

theorem ne_of_isNameChar {c d : Char} (h : isNameChar c = true) (hd : isNameChar d = false) :
    c ≠ d := by
  intro e
  rw [e, hd] at h
  cases h

theorem isPlainCode_of_isNameChar {c : Char} (h : isNameChar c = true) : isPlainCode c = true := by
  have hne : ∀ d : Char, isNameChar d = false → c ≠ d := fun d => ne_of_isNameChar h
  simp [isPlainCode, State.step, codeStep, hne '\x27' (by decide), hne '\x22' (by decide),
    hne '/' (by decide), hne '?' (by decide), hne '<' (by decide), hne '#' (by decide),
    hne '\x60' (by decide)]

theorem isNameChar_of_isName {t : Text} (h : isName t = true) : ∀ c ∈ t, isNameChar c = true := by
  cases t with
  | nil => cases h
  | cons c r =>
    obtain ⟨hc, hr⟩ := Bool.and_eq_true_iff.1 h
    intro d hd
    rcases List.mem_cons.1 hd with rfl | hd
    · unfold isNameChar
      rw [hc]
      rfl
    · exact List.all_eq_true.1 hr d hd

theorem read_blockComment_of_isNameChar {t : Text} (h : ∀ c ∈ t, isNameChar c = true) :
    read (.blockComment false) t = some (.blockComment false, t.map .text) := by
  induction t with
  | nil => rfl
  | cons c r ih =>
    have hstar : c ≠ '*' := ne_of_isNameChar (h c List.mem_cons_self) (by decide)
    have hc : (State.blockComment false).step c = some (.blockComment false, [.text c]) := by
      simp [State.step, blockCommentStep, hstar]
    rw [read_cons_of_step r hc, ih fun d hd => h d (List.mem_cons_of_mem c hd)]
    rfl

namespace Sound

variable {s : State} {fs : List Fragment} {b : List Event}

/-- Code without quotes, comments and heredocs. -/
theorem plain {t : String} {l : Text} (ht : t.toList = l) (hl : l.all isPlainCode = true)
    (h : Sound .code fs s b) : Sound .code (.code t :: fs) s (l.map .code ++ b) := by
  refine code ?_ h
  rw [ht]
  exact read_code_of_isPlainCode (List.all_eq_true.1 hl)

theorem name_code {t : String} (ht : isClassName t = true) (h : Sound .code fs s b) :
    Sound .code (.name t :: fs) s (t.toList.map .code ++ b) :=
  cons (read_code_of_isPlainCode fun c hc =>
    isPlainCode_of_isNameChar (isNameChar_of_isName ht c hc)) rfl h

theorem name_blockComment {t : String} (ht : isClassName t = true)
    (h : Sound (.blockComment false) fs s b) :
    Sound (.blockComment false) (.name t :: fs) s (t.toList.map .text ++ b) :=
  cons (read_blockComment_of_isNameChar (isNameChar_of_isName ht)) rfl h

end Sound

end SchemaInstaller.Php
