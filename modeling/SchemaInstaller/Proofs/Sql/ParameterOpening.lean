import SchemaInstaller.Proofs.Sql.ProcedureHeader

/-!
# Where a parameter list opens

The parameters of a procedure follow its header: the word `PROCEDURE`, a name that may be qualified,
and a parenthesis (`Heading`). A name without quotes can hold points, so a text can be read as a
header in several ways, but all of them end at the same parenthesis, and the search finds it
whatever the way (`openingBehindName_of`). The list opens behind the first header of the
definition, and where there is none, at the first parenthesis of all (`IsOpening`).
-/

namespace SchemaInstaller.Sql

open Scan Text

/-! ## Names -/

/-- A name between backticks or without quotes, up to a blank, a parenthesis or a backtick at
most. -/
inductive HeadingName : Text → Prop
  | quoted {t : Text} (ht : '\x60' ∉ t) : HeadingName ('\x60' :: (t ++ ['\x60']))
  | bare {t : Text} (hne : t ≠ []) (ht : ∀ c ∈ t, isBareNameChar c = true) : HeadingName t

/-- A name or two of them with a point between them, with blanks behind each name and behind the
point. -/
inductive Naming : Text → Prop
  | single {n b : Text} (hn : HeadingName n) (hb : Blanks b) : Naming (n ++ b)
  | qualified {n b b' m b'' : Text} (hn : HeadingName n) (hb : Blanks b) (hb' : Blanks b')
    (hm : HeadingName m) (hb'' : Blanks b'') : Naming (n ++ (b ++ '.' :: (b' ++ (m ++ b''))))

section Names

variable {n b b' r t : Text}

theorem isBareNameChar_of_isBlank {c : Char} (h : isBlank c = true) : isBareNameChar c = false := by
  simp [isBareNameChar, h]

theorem isBlank_of_isBareNameChar {c : Char} (h : isBareNameChar c = true) : isBlank c = false := by
  simp only [isBareNameChar, Bool.and_eq_true, Bool.not_eq_true'] at h
  exact h.1.1

/-- No name goes on in blanks. -/
theorem dropWhile_blanks (hb : Blanks b) (hne : b ≠ []) (r : Text) :
    (b ++ r).dropWhile isBareNameChar = b ++ r := by
  obtain ⟨c, b, rfl⟩ := List.exists_cons_of_ne_nil hne
  have hc := isBareNameChar_of_isBlank (hb c List.mem_cons_self)
  exact List.dropWhile_cons_of_neg (by simp [hc])

theorem dropWhile_blanks_paren (hb : Blanks b) (r : Text) :
    (b ++ '(' :: r).dropWhile isBareNameChar = b ++ '(' :: r := by
  rcases eq_or_ne b [] with rfl | hne
  · exact List.dropWhile_cons_of_neg (by decide)
  · exact dropWhile_blanks hb hne _

theorem HeadingName.exists_cons (hn : HeadingName n) :
    ∃ c u, n = c :: u ∧ isBlank c = false ∧ c ≠ '(' := by
  cases hn with
  | quoted ht => exact ⟨'\x60', _, rfl, rfl, by decide⟩
  | bare hne ht =>
    obtain ⟨c, u, rfl⟩ := List.exists_cons_of_ne_nil hne
    have hc := ht c List.mem_cons_self
    refine ⟨c, u, rfl, isBlank_of_isBareNameChar hc, ?_⟩
    rintro rfl
    cases hc

theorem HeadingName.skipBlanks (hn : HeadingName n) (r : Text) : skipBlanks (n ++ r) = n ++ r := by
  obtain ⟨c, u, rfl, hc, -⟩ := hn.exists_cons
  exact skipBlanks_of_not_isBlank hc _

theorem routineName_append (hn : HeadingName n) (hr : r.dropWhile isBareNameChar = r) :
    routineName (n ++ r) = some r := by
  unfold routineName orElse
  cases hn with
  | quoted ht =>
    have hquoted := quotedBy_append ht r
    rw [List.cons_append, List.append_assoc, List.singleton_append, hquoted]
    rfl
  | bare hne ht =>
    obtain ⟨c, u, rfl⟩ := List.exists_cons_of_ne_nil hne
    have hquoted := quotedBy_of_isBareNameChar (ht c List.mem_cons_self) (u ++ r)
    rw [List.cons_append, hquoted, Option.none_or, ← List.cons_append, many1_append hne ht, hr]

theorem exists_routineName (h : routineName t = some r) : ∃ n, HeadingName n ∧ t = n ++ r := by
  rcases Option.or_eq_some_iff.1 h with hquoted | ⟨-, hbare⟩
  · obtain ⟨u, hu, rfl⟩ := exists_of_quotedBy hquoted
    exact ⟨_, .quoted hu, by simp⟩
  · obtain ⟨u, hne, hu, rfl⟩ := exists_of_many1 hbare
    exact ⟨u, .bare hne hu, rfl⟩

end Names

/-! ## The parenthesis behind a name -/

section Opening

variable {n m b b' b'' r t u : Text}

theorem opening_append (hb : Blanks b) (r : Text) : opening (b ++ '(' :: r) = some r := by
  unfold opening
  rw [skipBlanks_append hb, skipBlanks_of_not_isBlank rfl]
  rfl

theorem exists_opening (h : opening t = some r) : ∃ b, Blanks b ∧ t = b ++ '(' :: r := by
  obtain ⟨b, hb, hsplit⟩ := exists_skipBlanks t
  obtain ⟨-, rfl, hskip⟩ := (literal_of ['('] _ r).1 h
  exact ⟨b, hb, hsplit.trans (congrArg (b ++ ·) hskip)⟩

theorem opening_name (hb : Blanks b) (hn : HeadingName n) (r : Text) :
    opening (b ++ (n ++ r)) = none := by
  obtain ⟨c, u, rfl, hblank, hc⟩ := hn.exists_cons
  unfold opening
  rw [skipBlanks_append hb, hn.skipBlanks]
  exact literal_cons_of_ne (Ne.symm hc) _

theorem point_append (hb : Blanks b) (t : Text) : point (b ++ '.' :: t) = some (skipBlanks t) := by
  unfold point
  rw [skipBlanks_append hb, skipBlanks_of_not_isBlank rfl]
  rfl

theorem point_of_opening (hb : Blanks b) (r : Text) : point (b ++ '(' :: r) = none := by
  unfold point
  rw [skipBlanks_append hb, skipBlanks_of_not_isBlank rfl]
  rfl

theorem exists_point (h : point t = some r) :
    ∃ b b', Blanks b ∧ Blanks b' ∧ t = b ++ '.' :: (b' ++ r) := by
  obtain ⟨u, hu, rfl⟩ := Option.map_eq_some_iff.1 h
  obtain ⟨b, hb, hsplit⟩ := exists_skipBlanks t
  obtain ⟨b', hb', hrest⟩ := exists_skipBlanks u
  obtain ⟨-, rfl, hskip⟩ := (literal_of ['.'] _ u).1 hu
  refine ⟨b, b', hb, hb', ?_⟩
  rw [← hrest]
  exact hsplit.trans (congrArg (b ++ ·) hskip)

theorem isBareNameChar_point (hn : ∀ c ∈ n, isBareNameChar c = true) :
    ∀ c ∈ n ++ ['.'], isBareNameChar c = true := by
  intro c hc
  rcases List.mem_append.1 hc with hc | hc
  · exact hn c hc
  · rw [List.mem_singleton.1 hc]
    rfl

theorem exists_nameWithPoint (h : nameWithPoint t = some r) :
    ∃ n b, HeadingName n ∧ Blanks b ∧ t = n ++ '.' :: (b ++ r) := by
  unfold nameWithPoint at h
  by_cases hname : ((t.takeWhile isBareNameChar).length ≥ 2 &&
      (t.takeWhile isBareNameChar).getLast? == some '.') = true
  · rw [if_pos hname] at h
    cases h
    simp only [Bool.and_eq_true, decide_eq_true_eq, beq_iff_eq] at hname
    obtain ⟨hlength, hlast⟩ := hname
    obtain ⟨n, hn⟩ := List.getLast?_eq_some_iff.1 hlast
    obtain ⟨b, hb, hsplit⟩ := exists_skipBlanks (t.dropWhile isBareNameChar)
    have hchars : ∀ c ∈ n, isBareNameChar c = true := by
      intro c hc
      refine List.mem_takeWhile_imp (l := t) ?_
      rw [hn]
      exact List.mem_append_left _ hc
    have hne : n ≠ [] := by
      rintro rfl
      rw [hn] at hlength
      exact absurd hlength (by decide)
    refine ⟨n, b, .bare hne hchars, hb, ?_⟩
    rw [← hsplit, ← List.singleton_append, ← List.append_assoc, ← hn,
      List.takeWhile_append_dropWhile]
  · rw [if_neg hname] at h
    cases h

/-- A name without quotes in front of a point and of something that does not belong to a name. -/
theorem nameWithPoint_append (hne : n ≠ []) (hn : ∀ c ∈ n, isBareNameChar c = true)
    (hr : r.dropWhile isBareNameChar = r) :
    nameWithPoint (n ++ '.' :: r) = some (skipBlanks r) := by
  have hsplit : n ++ '.' :: r = (n ++ ['.']) ++ r := by simp
  have hdrop : (n ++ '.' :: r).dropWhile isBareNameChar = r := by
    rw [hsplit, List.dropWhile_append_of_pos (isBareNameChar_point hn), hr]
  have htake : (n ++ '.' :: r).takeWhile isBareNameChar = n ++ ['.'] := by
    have hall := List.takeWhile_append_dropWhile (p := isBareNameChar) (l := n ++ '.' :: r)
    rw [hdrop] at hall
    exact List.append_cancel_right (hall.trans hsplit)
  unfold nameWithPoint
  rw [htake, hdrop]
  simp [hne]

/-- A name and the parenthesis behind it. -/
theorem nameOpening_append (hn : HeadingName n) (hb : Blanks b) (r : Text) :
    (routineName (n ++ (b ++ '(' :: r))).bind opening = some r := by
  rw [routineName_append hn (dropWhile_blanks_paren hb r), Option.bind_some, opening_append hb]

theorem exists_nameOpening (h : (routineName t).bind opening = some r) :
    ∃ n b, HeadingName n ∧ Blanks b ∧ t = n ++ (b ++ '(' :: r) := by
  obtain ⟨u, hu, hopening⟩ := Option.bind_eq_some_iff.1 h
  obtain ⟨n, hn, rfl⟩ := exists_routineName hu
  obtain ⟨b, hb, rfl⟩ := exists_opening hopening
  exact ⟨n, b, hn, hb, rfl⟩

theorem openingBehindName_single (hn : HeadingName n) (hb : Blanks b) (r : Text) :
    openingBehindName (n ++ (b ++ '(' :: r)) = some r := by
  unfold openingBehindName
  rw [routineName_append hn (dropWhile_blanks_paren hb r), Option.bind_some, point_of_opening hb,
    opening_append hb]
  rfl

/-- The search sees where the first name ends. -/
theorem openingBehindName_of_routineName (hb : Blanks b) (hb' : Blanks b') (hm : HeadingName m)
    (hb'' : Blanks b'')
    (h : routineName t = some (b ++ '.' :: (b' ++ (m ++ (b'' ++ '(' :: r))))) :
    openingBehindName t = some r := by
  unfold openingBehindName
  rw [h, Option.bind_some, point_append hb, skipBlanks_append hb', hm.skipBlanks, Option.bind_some,
    nameOpening_append hm hb'']
  rfl

/-- A second name that begins with a point can be taken for a point and a name. -/
theorem pointOpening_cases (hb : Blanks b) (hm : HeadingName m) (hb' : Blanks b') (r : Text) :
    ((point (b ++ (m ++ (b' ++ '(' :: r)))).bind routineName).bind opening = none ∨
      ((point (b ++ (m ++ (b' ++ '(' :: r)))).bind routineName).bind opening = some r := by
  obtain ⟨c, u, rfl, hblank, -⟩ := hm.exists_cons
  by_cases hc : c = '.'
  · subst hc
    rw [List.cons_append, point_append hb, Option.bind_some]
    rcases eq_or_ne u [] with rfl | hne
    · rw [List.nil_append, skipBlanks_append hb', skipBlanks_of_not_isBlank rfl]
      exact Or.inl rfl
    · have hu : HeadingName u := by
        cases hm with
        | bare _ ht => exact .bare hne fun d hd => ht d (List.mem_cons_of_mem _ hd)
      rw [hu.skipBlanks, nameOpening_append hu hb']
      exact Or.inr rfl
  · left
    unfold point
    rw [skipBlanks_append hb, List.cons_append, skipBlanks_of_not_isBlank hblank,
      literal_cons_of_ne (Ne.symm hc)]
    rfl

/-- The search takes the point for a part of the first name. -/
theorem openingBehindName_of_point (hne : n ≠ []) (hn : ∀ c ∈ n, isBareNameChar c = true)
    (hb : Blanks b) (hm : HeadingName m) (hb' : Blanks b')
    (hstop : (b ++ (m ++ (b' ++ '(' :: r))).dropWhile isBareNameChar =
      b ++ (m ++ (b' ++ '(' :: r))) :
    openingBehindName (n ++ '.' :: (b ++ (m ++ (b' ++ '(' :: r)))) = some r := by
  have hname : routineName (n ++ '.' :: (b ++ (m ++ (b' ++ '(' :: r)))) =
      some (b ++ (m ++ (b' ++ '(' :: r))) := by
    have hpoint : HeadingName (n ++ ['.']) := .bare (by simp) (isBareNameChar_point hn)
    have hrest := routineName_append hpoint hstop
    rwa [List.append_assoc, List.singleton_append] at hrest
  unfold openingBehindName
  rw [hname, Option.bind_some, opening_name hb hm, Option.or_none,
    nameWithPoint_append hne hn hstop, skipBlanks_append hb, hm.skipBlanks, Option.bind_some,
    nameOpening_append hm hb']
  rcases pointOpening_cases hb hm hb' r with hnone | hsome
  · rw [hnone]
    rfl
  · rw [hsome]
    rfl

theorem openingBehindName_qualified (hn : HeadingName n) (hb : Blanks b) (hb' : Blanks b')
    (hm : HeadingName m) (hb'' : Blanks b'') (r : Text) :
    openingBehindName (n ++ (b ++ '.' :: (b' ++ (m ++ (b'' ++ '(' :: r))))) = some r := by
  cases hn with
  | quoted ht =>
    refine openingBehindName_of_routineName hb hb' hm hb'' ?_
    unfold routineName orElse
    rw [List.cons_append, List.append_assoc, List.singleton_append, quotedBy_append ht]
    rfl
  | bare hne ht =>
    rcases eq_or_ne b [] with rfl | hgap
    · -- the first name, its point and what follows can be one run of characters
      rcases eq_or_ne b' [] with rfl | hgap'
      · cases hm with
        | quoted hu =>
          exact openingBehindName_of_point hne ht hb' (.quoted hu) hb''
            (List.dropWhile_cons_of_neg (by decide))
        | @bare m hne' hu =>
          have hwhole : HeadingName (n ++ '.' :: m) := by
            refine .bare (by simp) fun c hc => ?_
            rcases List.mem_append.1 hc with hc | hc
            · exact ht c hc
            · rcases List.mem_cons.1 hc with rfl | hc
              · rfl
              · exact hu c hc
          have hsingle := openingBehindName_single hwhole hb'' r
          rwa [List.append_assoc, List.cons_append] at hsingle
      · exact openingBehindName_of_point hne ht hb' hm hb'' (dropWhile_blanks hb' hgap' _)
    · exact openingBehindName_of_routineName hb hb' hm hb''
        (routineName_append (.bare hne ht) (dropWhile_blanks hb hgap _))

/-- However a text can be read as names in front of a parenthesis, the parenthesis is found, and it
is found in such texts only. -/
theorem openingBehindName_of :
    Scan.Of openingBehindName fun w => ∃ v, Naming v ∧ w = v ++ ['('] := by
  intro t r
  constructor
  · intro h
    rcases Option.or_eq_some_iff.1 h with hbehind | ⟨-, hpoint⟩
    · obtain ⟨u, hu, hrest⟩ := Option.bind_eq_some_iff.1 hbehind
      obtain ⟨n, hn, rfl⟩ := exists_routineName hu
      rcases Option.or_eq_some_iff.1 hrest with hrest | ⟨-, hrest⟩
      · rw [Option.bind_assoc] at hrest
        obtain ⟨v, hv, hname⟩ := Option.bind_eq_some_iff.1 hrest
        obtain ⟨b, b', hb, hb', rfl⟩ := exists_point hv
        obtain ⟨m, b'', hm, hb'', rfl⟩ := exists_nameOpening hname
        exact ⟨_, ⟨_, .qualified hn hb hb' hm hb'', rfl⟩, by simp⟩
      · obtain ⟨b, hb, rfl⟩ := exists_opening hrest
        exact ⟨_, ⟨_, .single hn hb, rfl⟩, by simp⟩
    · rw [Option.bind_assoc] at hpoint
      obtain ⟨v, hv, hname⟩ := Option.bind_eq_some_iff.1 hpoint
      obtain ⟨n, b, hn, hb, rfl⟩ := exists_nameWithPoint hv
      obtain ⟨m, b', hm, hb', rfl⟩ := exists_nameOpening hname
      exact ⟨_, ⟨_, .qualified hn blanks_nil hb hm hb', rfl⟩, by simp⟩
  · rintro ⟨-, ⟨v, hv, rfl⟩, rfl⟩
    cases hv with
    | single hn hb =>
      simpa using openingBehindName_single hn hb r
    | qualified hn hb hb' hm hb'' =>
      simpa using openingBehindName_qualified hn hb hb' hm hb'' r

end Opening

/-! ## Headings -/

/-- The word `PROCEDURE` in any case and the names behind it. -/
def Heading (w : Text) : Prop :=
  ∃ p g v, InAnyCase "PROCEDURE".toList p ∧ Gap g ∧ Naming v ∧ w = p ++ (g ++ v)

theorem Naming.skipBlanks {v : Text} (hv : Naming v) (r : Text) : skipBlanks (v ++ r) = v ++ r := by
  cases hv with
  | single hn _ =>
    rw [List.append_assoc]
    exact hn.skipBlanks _
  | qualified hn _ _ _ _ =>
    rw [List.append_assoc]
    exact hn.skipBlanks _

theorem procedureOpening_eq_some_iff {prev : Option Char} {t r : Text} :
    procedureOpening prev t = some r ↔
      wordStart prev = true ∧ ∃ w, Heading w ∧ t = w ++ '(' :: r := by
  have hword := letters_inAnyCase "PROCEDURE".toList
  constructor
  · intro h
    obtain ⟨_, hguard, h⟩ := Option.bind_eq_some_iff.1 h
    obtain ⟨t₁, h₁, h⟩ := Option.bind_eq_some_iff.1 h
    obtain ⟨t₂, h₂, h₃⟩ := Option.bind_eq_some_iff.1 h
    obtain ⟨p, hp, rfl⟩ := (hword _ _).1 h₁
    obtain ⟨g, hg, rfl⟩ := exists_gap h₂
    obtain ⟨-, ⟨v, hv, rfl⟩, rfl⟩ := (openingBehindName_of _ _).1 h₃
    exact ⟨by simpa [guard] using hguard, _, ⟨p, g, v, hp, hg, hv, rfl⟩, by simp⟩
  · rintro ⟨hprev, -, ⟨p, g, v, hp, hg, hv, rfl⟩, rfl⟩
    have hnaming := openingBehindName_of.eq_some ⟨v, hv, rfl⟩ r
    rw [List.append_assoc, List.singleton_append] at hnaming
    unfold procedureOpening keyword
    rw [hprev, List.append_assoc, List.append_assoc, hword.eq_some hp]
    simp only [guard_true, Option.pure_def, Option.bind_eq_bind, Option.bind_some,
      hg.blanks1 (hv.skipBlanks _), hnaming]

/-! ## The opening -/

/-- The first place where a rule applies, and nothing before it. -/
theorem exists_of_firstMatch {rule : Rule} {prev : Option Char} {t a new rest : Text}
    (h : firstMatch rule prev t = some (a, new, rest)) :
    ∃ v, v ≠ [] ∧ t = a ++ v ∧ rule (a.getLast?.or prev) v = some (new, rest) ∧
      ∀ b c, a = b ++ c → c ≠ [] → rule (b.getLast?.or prev) (c ++ v) = none := by
  induction t generalizing prev a with
  | nil => cases h
  | cons c t ih =>
    rw [firstMatch] at h
    cases hrule : rule prev (c :: t) with
    | some m =>
      rw [hrule] at h
      cases h
      refine ⟨c :: t, List.cons_ne_nil c t, rfl, hrule, fun b d hbd hd => ?_⟩
      exact absurd (List.append_eq_nil_iff.1 hbd.symm).2 hd
    | none =>
      rw [hrule] at h
      obtain ⟨⟨a, new, rest⟩, hm, heq⟩ := Option.map_eq_some_iff.1 h
      cases heq
      obtain ⟨v, hv, rfl, hmatch, hnone⟩ := ih hm
      refine ⟨v, hv, rfl, ?_, fun b d hbd hd => ?_⟩
      · rw [getLast?_cons_or]
        exact hmatch
      · rcases List.append_eq_cons_iff.1 hbd.symm with ⟨rfl, rfl⟩ | ⟨b', rfl, hb'⟩
        · exact hrule
        · rw [getLast?_cons_or]
          exact hnone b' d hb' hd

theorem firstMatch_eq_none_iff {rule : Rule} {prev : Option Char} {t : Text} :
    firstMatch rule prev t = none ↔
      ∀ a v, t = a ++ v → v ≠ [] → rule (a.getLast?.or prev) v = none := by
  constructor
  · intro h a v ht hv
    induction t generalizing prev a with
    | nil => exact absurd (List.append_eq_nil_iff.1 ht.symm).2 hv
    | cons c t ih =>
      rw [firstMatch] at h
      cases hrule : rule prev (c :: t) with
      | some m =>
        rw [hrule] at h
        cases h
      | none =>
        rw [hrule] at h
        rcases List.append_eq_cons_iff.1 ht.symm with ⟨rfl, rfl⟩ | ⟨a', rfl, ha'⟩
        · exact hrule
        · rw [getLast?_cons_or]
          exact ih (Option.map_eq_none_iff.1 h) a' ha'
  · intro h
    cases hmatch : firstMatch rule prev t with
    | none => rfl
    | some m =>
      obtain ⟨v, hv, ht, hrule, -⟩ := exists_of_firstMatch hmatch
      rw [h m.1 v ht hv] at hrule
      cases hrule

/-- A heading and its parenthesis in a definition, with what stands before them and behind them. -/
structure HeadingAt (d b w r : Text) : Prop where
  split : d = b ++ (w ++ '(' :: r)
  start : wordStart b.getLast? = true
  heading : Heading w

/-- The parenthesis that opens the parameter list: that of the first heading, or, in a definition
without a heading, the first one. -/
inductive IsOpening (d : Text) : Text → Text → Prop
  | heading {b w r : Text} (h : HeadingAt d b w r)
    (hfirst : ∀ b' w' r', HeadingAt d b' w' r' → b.length ≤ b'.length) : IsOpening d (b ++ w) r
  | plain {a r : Text} (hd : d = a ++ '(' :: r) (hfirst : '(' ∉ a)
    (hnone : ∀ b w r, ¬HeadingAt d b w r) : IsOpening d a r

section IsOpening

variable {d a b v r : Text}

theorem IsOpening.split (h : IsOpening d a r) : d = a ++ '(' :: r := by
  cases h with
  | heading h _ => rw [List.append_assoc, ← h.split]
  | plain hd _ _ => exact hd

/-- The rule by which the search for a heading goes. -/
def headingRule : Rule := fun prev t => (procedureOpening prev t).map ([], ·)

theorem exists_headingAt (hd : d = b ++ v) {new : Text}
    (h : headingRule b.getLast? v = some (new, r)) : ∃ w, HeadingAt d b w r ∧ v = w ++ '(' :: r := by
  obtain ⟨r, hr, heq⟩ := Option.map_eq_some_iff.1 h
  cases heq
  obtain ⟨hstart, w, hw, rfl⟩ := procedureOpening_eq_some_iff.1 hr
  exact ⟨w, ⟨hd, hstart, hw⟩, rfl⟩

theorem HeadingAt.rule {w : Text} (h : HeadingAt d b w r) :
    headingRule b.getLast? (w ++ '(' :: r) = some ([], r) := by
  unfold headingRule
  rw [procedureOpening_eq_some_iff.2 ⟨h.start, w, h.heading, rfl⟩]
  rfl

theorem firstMatch_headingRule_eq_none_iff :
    firstMatch headingRule none d = none ↔ ∀ b w r, ¬HeadingAt d b w r := by
  rw [firstMatch_eq_none_iff]
  simp only [Option.or_none]
  constructor
  · intro hnone b w r h
    have hrule := h.rule
    rw [hnone b _ h.split (by simp)] at hrule
    cases hrule
  · intro hnone b v hd _
    cases hrule : headingRule b.getLast? v with
    | none => rfl
    | some m =>
      obtain ⟨w, h, -⟩ := exists_headingAt hd hrule
      exact absurd h (hnone b w m.2)

theorem behindOpening_of_match {new : Text} (h : firstMatch headingRule none d = some (b, new, r)) :
    behindOpening d = some r := by
  unfold behindOpening
  unfold headingRule at h
  rw [h]

theorem behindOpening_of_no_match (h : firstMatch headingRule none d = none) :
    behindOpening d = one (· == '(') (d.dropWhile (· != '(')) := by
  unfold behindOpening
  unfold headingRule at h
  rw [h]

theorem dropWhile_paren (ha : '(' ∉ a) (r : Text) :
    (a ++ '(' :: r).dropWhile (· != '(') = '(' :: r := by
  rw [List.dropWhile_append_of_pos fun c hc => by simpa using fun h : c = '(' => ha (h ▸ hc)]
  exact List.dropWhile_cons_of_neg (by decide)

theorem takeWhile_paren (ha : '(' ∉ a) (r : Text) : (a ++ '(' :: r).takeWhile (· != '(') = a := by
  rw [List.takeWhile_append_of_pos fun c hc => by simpa using fun h : c = '(' => ha (h ▸ hc),
    List.takeWhile_cons_of_neg (by decide), List.append_nil]

theorem isOpening_of_match {new : Text} (h : firstMatch headingRule none d = some (b, new, r)) :
    ∃ w, IsOpening d (b ++ w) r := by
  obtain ⟨v, -, hd, hrule, hnone⟩ := exists_of_firstMatch h
  rw [Option.or_none] at hrule
  obtain ⟨w, hw, hv⟩ := exists_headingAt hd hrule
  refine ⟨w, .heading hw fun b' w' r' h' => ?_⟩
  -- a heading further left would have been found
  by_contra! hshort
  obtain ⟨c, rfl, hc⟩ : ∃ c, b = b' ++ c ∧ w' ++ '(' :: r' = c ++ v := by
    rcases List.append_eq_append_iff.1 (hd.symm.trans h'.split) with ⟨c, rfl, -⟩ | h
    · rw [List.length_append] at hshort
      omega
    · exact h
  have hcne : c ≠ [] := by
    rintro rfl
    simp at hshort
  have hrule' := h'.rule
  rw [hc, ← Option.or_none (o := b'.getLast?), hnone b' c rfl hcne] at hrule'
  cases hrule'

theorem behindOpening_eq_some_iff : behindOpening d = some r ↔ ∃ a, IsOpening d a r := by
  constructor
  · intro h
    cases hmatch : firstMatch headingRule none d with
    | some m =>
      rw [behindOpening_of_match hmatch] at h
      cases h
      obtain ⟨w, hw⟩ := isOpening_of_match hmatch
      exact ⟨_, hw⟩
    | none =>
      rw [behindOpening_of_no_match hmatch] at h
      obtain ⟨c, hdrop, hc⟩ := eq_cons_of_one h
      obtain rfl : c = '(' := by simpa using hc
      refine ⟨d.takeWhile (· != '('), .plain ?_ (fun hmem => ?_)
        (firstMatch_headingRule_eq_none_iff.1 hmatch)⟩
      · rw [← hdrop, List.takeWhile_append_dropWhile]
      · simpa using List.mem_takeWhile_imp hmem
  · rintro ⟨a, h⟩
    cases h with
    | @heading b w r h hfirst =>
      have hmatch : firstMatch headingRule none (b ++ (w ++ '(' :: r)) = some (b, [], r) := by
        refine firstMatch_of_forall (by simp) none ?_ fun b' c hb hc => ?_
        · rw [Option.or_none]
          exact h.rule
        · rw [Option.or_none]
          cases hrule : headingRule b'.getLast? (c ++ (w ++ '(' :: r)) with
          | none => rfl
          | some m =>
            have hsplit : d = b' ++ (c ++ (w ++ '(' :: r)) := by
              rw [h.split, hb, List.append_assoc]
            obtain ⟨w', h', -⟩ := exists_headingAt hsplit hrule
            have hle := hfirst b' w' m.2 h'
            have hpos := List.length_pos_iff.2 hc
            rw [hb, List.length_append] at hle
            omega
      rw [← h.split] at hmatch
      exact behindOpening_of_match hmatch
    | plain hd hfirst hnone =>
      rw [behindOpening_of_no_match (firstMatch_headingRule_eq_none_iff.2 hnone), hd,
        dropWhile_paren hfirst]
      rfl

/-- A list opens wherever there is a parenthesis. -/
theorem behindOpening_eq_none_iff : behindOpening d = none ↔ '(' ∉ d := by
  constructor
  · intro h hmem
    cases hmatch : firstMatch headingRule none d with
    | some m =>
      rw [behindOpening_of_match hmatch] at h
      cases h
    | none =>
      obtain ⟨a, r, rfl, ha⟩ := List.eq_append_cons_of_mem hmem
      rw [behindOpening_of_no_match hmatch, dropWhile_paren ha] at h
      cases h
  · intro hnone
    cases hfound : behindOpening d with
    | none => rfl
    | some r =>
      obtain ⟨a, ha⟩ := behindOpening_eq_some_iff.1 hfound
      exact absurd (ha.split ▸ by simp) hnone

end IsOpening

end SchemaInstaller.Sql
