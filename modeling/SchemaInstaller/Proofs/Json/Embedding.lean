import Mathlib.Data.List.TakeWhile
import SchemaInstaller.Proofs.Json.Tokens

/-!
# Documents inside other documents

The reader takes the same document from a text whether it stands alone or is the last field of an
object, up to the limit of nesting (`embeds_value`). A text that is no document makes none of the
object around it either (`usesUp_lastField`): if the text is not finished and the closing brace of
the object finishes it, that brace is missing behind it.
-/

namespace SchemaInstaller.Json

variable {n : Nat}

/-! ## Values in front of braces -/

section Members

/-- Two readers of values. The first is given texts of `l` characters at most, the second the same
with braces behind them. -/
structure ReadsInside (n l : Nat) (read read' : Text → Except Stop (Parsed Json)) : Prop where
  embeds {t : Text} {k : Nat} (hl : t.length ≤ l) (hk : t.length ≤ k + 1) :
    Embeds n k (read t) (read' (t ++ braces n))
  onlyBraces (m : Nat) : ∃ s, read' (braces m) = .error s

variable {n l : Nat} {read read' : Text → Except Stop (Parsed Json)}

theorem ReadsInside.items_braces (h : ReadsInside n l read read') (fuel : Nat) (later : Bool)
    (done : List Json) (m : Nat) : ∃ s, items read' fuel later done (braces m) = .error s := by
  cases fuel with
  | zero => exact ⟨_, rfl⟩
  | succ fuel =>
    cases m with
    | zero => exact ⟨_, rfl⟩
    | succ m =>
      cases later with
      | true => exact ⟨_, rfl⟩
      | false =>
        obtain ⟨s, hs⟩ := h.onlyBraces (m + 1)
        refine ⟨s, ?_⟩
        show (read' (braces (m + 1))).bind _ = _
        rw [hs]
        rfl

theorem ReadsInside.embeds_items (h : ReadsInside n l read read') {fuel fuel' k : Nat} {t : Text}
    (hl : t.length ≤ l) (hk : t.length ≤ k) (hfuel : t.length < fuel) (hfuel' : t.length < fuel')
    (later : Bool) (done : List Json) :
    Embeds n k (items read fuel later done t) (items read' fuel' later done (t ++ braces n)) := by
  induction fuel generalizing fuel' t later done with
  | zero => exact absurd hfuel (Nat.not_lt_zero _)
  | succ fuel ih =>
    obtain ⟨fuel', rfl⟩ : ∃ m, fuel' = m + 1 := Nat.exists_eq_add_one_of_ne_zero (by omega)
    -- An item, and what is behind it.
    have hitem {c : Char} {r : Text} (hu : r.length < t.length) :
        Embeds n k
          ((read (c :: r)).bind fun p => items read fuel true (p.1 :: done) p.2)
          ((read' (c :: r ++ braces n)).bind fun p =>
            items read' fuel' true (p.1 :: done) p.2) := by
      refine (h.embeds (k := r.length) (Nat.le_trans hu hl) (Nat.le_refl _)).bind
        (fun v rest hrest => ?_) fun v m hm => .inl (h.items_braces fuel' true (v :: done) m)
      apply ih (t := rest) <;> omega
    rcases skipSpacing_inside t n with ⟨hu, hv⟩ | ⟨c, r, hr, hu, hv⟩
    · obtain ⟨s, hs⟩ := h.items_braces (fuel' + 1) later done n
      rw [items, skipSpacing_only_braces] at hs
      rw [items, items, hu, hv, hs]
      exact .stays (.error _ _)
    rw [items, items, hu, hv]
    dsimp only
    split
    · exact .stays (.ok _ r (by omega))
    split
    · exact hitem hr
    split
    · rcases skipSpacing_inside r n with ⟨hu, hv⟩ | ⟨d, r', hr', hu, hv⟩
      · rw [hu, hv]
        cases n with
        | zero => exact .stays (.error _ _)
        | succ n =>
          obtain ⟨s, hs⟩ := h.onlyBraces (n + 1)
          refine UsesUp.embeds (.inl ⟨s, ?_⟩) _
          show (read' (braces (n + 1))).bind _ = _
          rw [hs]
          rfl
      · rw [hu, hv]
        dsimp only
        split
        · exact .stays (.error _ _)
        · exact hitem (Nat.lt_trans hr' hr)
    · exact .stays (.error _ _)

theorem ReadsInside.embeds_field (h : ReadsInside n l read read') {fuel fuel' k : Nat} {t : Text}
    (hl : t.length ≤ l) (hk : t.length ≤ k + 1) (hfuel : t.length ≤ fuel)
    (hfuel' : t.length ≤ fuel') :
    Embeds n k (field read fuel t) (field read' fuel' (t ++ braces n)) := by
  cases t with
  | nil => cases n <;> exact .stays (.error _ _)
  | cons c r =>
    rw [List.length_cons] at hl hk hfuel hfuel'
    rw [List.cons_append, field, field]
    split
    · exact .stays (.error _ _)
    refine (stays_stringBody (by omega) (by omega) [] n).bind_embeds fun key rest hrest => ?_
    dsimp only
    rcases skipSpacing_inside rest n with ⟨hu, hv⟩ | ⟨d, u, hlt, hu, hv⟩
    · rw [hu, hv]
      cases n <;> exact .stays (.error _ _)
    · rw [hu, hv]
      dsimp only
      split
      · exact .stays (.error _ _)
      · exact (h.embeds (k := k) (by omega) (by omega)).map fun v => (key, v)

/-- A brace ends an object. -/
theorem usesUp_fields (read : Text → Except Stop (Parsed Json)) (fuel : Nat) (later : Bool)
    (done : Fields) (m : Nat) : UsesUp m (fields read fuel later done (braces m)) := by
  cases fuel with
  | zero => exact .inl ⟨_, rfl⟩
  | succ fuel =>
    cases m with
    | zero => exact .inl ⟨_, rfl⟩
    | succ m => exact .inr ⟨done, m, Nat.lt_succ_self m, rfl⟩

theorem ReadsInside.embeds_fields (h : ReadsInside n l read read') {fuel fuel' k : Nat} {t : Text}
    (hl : t.length ≤ l) (hk : t.length ≤ k) (hfuel : t.length < fuel) (hfuel' : t.length < fuel')
    (later : Bool) (done : Fields) :
    Embeds n k (fields read fuel later done t) (fields read' fuel' later done (t ++ braces n)) := by
  induction fuel generalizing fuel' t later done with
  | zero => exact absurd hfuel (Nat.not_lt_zero _)
  | succ fuel ih =>
    obtain ⟨fuel', rfl⟩ : ∃ m, fuel' = m + 1 := Nat.exists_eq_add_one_of_ne_zero (by omega)
    -- A field, and what is behind it.
    have hfield {c : Char} {r : Text} (hu : r.length < t.length) :
        Embeds n k
          ((field read fuel (c :: r)).bind fun p =>
            fields read fuel true (done.set p.1.1 p.1.2) p.2)
          ((field read' fuel' (c :: r ++ braces n)).bind fun p =>
            fields read' fuel' true (done.set p.1.1 p.1.2) p.2) := by
      refine (h.embeds_field (k := r.length) (Nat.le_trans hu hl) (Nat.le_refl _)
        (Nat.le_trans hu (Nat.le_of_lt_succ hfuel))
        (Nat.le_trans hu (Nat.le_of_lt_succ hfuel'))).bind (fun f rest hrest => ?_)
        fun f m hm => (usesUp_fields read' fuel' true _ m).mono (Nat.le_of_lt hm)
      apply ih (t := rest) <;> omega
    rcases skipSpacing_inside t n with ⟨hu, hv⟩ | ⟨c, r, hr, hu, hv⟩
    · have hend := usesUp_fields read' (fuel' + 1) later done n
      rw [fields, skipSpacing_only_braces] at hend
      rw [fields, fields, hu, hv]
      exact hend.embeds _
    rw [fields, fields, hu, hv]
    dsimp only
    split
    · exact .stays (.ok _ r (by omega))
    split
    · exact hfield hr
    split
    · rcases skipSpacing_inside r n with ⟨hu, hv⟩ | ⟨d, r', hr', hu, hv⟩
      · rw [hu, hv]
        cases n <;> exact .stays (.error _ _)
      · rw [hu, hv]
        dsimp only
        split
        · exact .stays (.error _ _)
        · exact hfield (Nat.lt_trans hr' hr)
    · exact .stays (.error _ _)

end Members

theorem value_only_braces (fuel depth n : Nat) : ∃ s, value fuel depth (braces n) = .error s := by
  cases n with
  | zero => cases depth <;> exact ⟨_, rfl⟩
  | succ n => cases depth <;> exact ⟨_, rfl⟩

/-- A value is read from a text as from the text in front of closing braces, where it may be nested
deeper. -/
theorem embeds_value {fuel fuel' depth depth' n k : Nat} {t : Text} (hdepth : depth ≤ depth')
    (hfuel : t.length < fuel) (hfuel' : t.length < fuel') (hk : t.length ≤ k + 1) :
    Embeds n k (value fuel depth t) (value fuel' depth' (t ++ braces n)) := by
  induction depth using Nat.strongRecOn generalizing depth' t k with
  | ind depth ih =>
    rcases skipSpacing_inside t n with ⟨hu, hv⟩ | ⟨c, r, hlt, hu, hv⟩
    · obtain ⟨s, hs⟩ := value_only_braces fuel' depth' n
      rw [value, skipSpacing_only_braces] at hs
      rw [value, value, hu, hv, hs]
      exact .stays (.error _ _)
    have hr : r.length ≤ k := by omega
    -- What is nested one level less deep, behind the bracket.
    have hread {depth₁ depth₂ : Nat} (hless : depth₁ < depth) (hle : depth₁ ≤ depth₂) :
        ReadsInside n r.length (value fuel depth₁) (value fuel' depth₂) :=
      ⟨fun hl hk => ih depth₁ hless hle (by omega) (by omega) hk,
        value_only_braces fuel' depth₂⟩
    rw [value, value, hu, hv]
    dsimp only
    split
    · exact .stays (((stays_word (by decide) r n).mono hr).map fun _ => null)
    split
    · exact .stays (((stays_word (by decide) r n).mono hr).map fun _ => bool true)
    split
    · exact .stays (((stays_word (by decide) r n).mono hr).map fun _ => bool false)
    split
    · exact .stays (((stays_readNumber true r n).mono (by omega)).map number)
    split
    · exact .stays (((stays_readNumber false (c :: r) n).mono hr).map number)
    split
    · exact .stays (((stays_stringBody (by omega) (by omega) [] n).mono hr).map string)
    split
    · cases depth with
      | zero => exact .deep rfl _
      | succ depth =>
        obtain ⟨depth', rfl⟩ : ∃ m, depth' = m + 1 := Nat.exists_eq_add_one_of_ne_zero (by omega)
        exact ((hread (Nat.lt_succ_self depth) (by omega)).embeds_items (Nat.le_refl _) hr
          (by omega) (by omega) false []).map array
    split
    · cases depth with
      | zero => exact .deep rfl _
      | succ depth =>
        obtain ⟨depth', rfl⟩ : ∃ m, depth' = m + 1 := Nat.exists_eq_add_one_of_ne_zero (by omega)
        exact ((hread (Nat.lt_succ_self depth) (by omega)).embeds_fields (Nat.le_refl _) hr
          (by omega) (by omega) false []).map object
    · exact .stays (.error _ _)

/-! ## The last field of an object -/

/-- An object of two fields up to the value of the second one, and the text from there on. -/
def lastField (f : String × Json) (key : String) (t : Text) : Text :=
  '\x7b' :: (writeField .compact 0 f ++ ',' :: (quote key ++ ':' :: t))

theorem length_lastField (f : String × Json) (key : String) (t : Text) :
    (lastField f key t).length =
      (writeField .compact 0 f).length + (quote key).length + t.length + 3 := by
  simp only [lastField, List.length_cons, List.length_append]
  omega

theorem spaced_compact : Layout.compact.Spaced :=
  ⟨fun _ => isGap_nil, fun _ => isGap_nil, isGap_nil⟩

theorem field_quote {read : Text → Except Stop (Parsed Json)} {key : String} {fuel : Nat}
    (hfuel : key.toList.length < fuel) (t : Text) :
    field read fuel (quote key ++ ':' :: t) = (read t).map fun p => ((key, p.1), p.2) := by
  have hstring := stringBody_quote hfuel [] (':' :: t)
  have htext : quote key ++ ':' :: t =
      '\x22' :: (key.toList.flatMap escapeChar ++ '\x22' :: ':' :: t) := by
    simp only [quote, List.append_assoc, List.cons_append, List.nil_append]
  rw [htext, field, if_neg (by decide), readString, hstring]
  simp only [bind, Except.bind, skipSpacing_cons (c := ':') rfl, List.reverse_nil,
    List.nil_append, String.ofList_toList]
  cases read t <;> rfl

/-- Behind a field and a comma comes a field. -/
theorem fields_comma {read : Text → Except Stop (Parsed Json)} {t : Text}
    (ht : t.head? = some '\x22') (fuel : Nat) (done : Fields) :
    fields read (fuel + 1) true done (',' :: t) =
      (field read fuel t).bind fun p => fields read fuel true (done.set p.1.1 p.1.2) p.2 := by
  obtain ⟨r, rfl⟩ := List.head?_eq_some_iff.1 ht
  rw [fields, skipSpacing_cons (by decide)]
  simp only [skipSpacing_cons (c := '\x22') rfl]
  rfl

/-- What the value of the last field makes of the object. -/
theorem value_lastField {f : String × Json} {key : String} {fuel depth : Nat} {t : Text}
    (hf : Readable depth f.2) (hkey : f.1 ≠ key) (hfuel : (lastField f key t).length < fuel) :
    ∃ fuel', value fuel (depth + 1) (lastField f key t) =
      ((value fuel depth t).bind fun p =>
        fields (value fuel depth) (fuel' + 1) true [f, (key, p.1)] p.2).map
          fun p => (object p.1, p.2) := by
  have hlength := length_lastField f key t
  have hquote := length_quote_le_writeField (l := .compact) (k := 0) f
  have hwrite : (write .compact 1 f.2).length ≤ (writeField .compact 0 f).length :=
    length_write_le_writeField f
  have hname := length_lt_quote key
  obtain ⟨m, rfl⟩ : ∃ m, fuel = m + 3 := ⟨fuel - 3, by omega⟩
  have hcomma : EndsNumber (',' :: (quote key ++ ':' :: t)) := endsNumber_cons _ (by decide)
  have hvalue : value (m + 3) depth (write .compact 1 f.2 ++ ',' :: (quote key ++ ':' :: t)) =
      .ok (f.2, ',' :: (quote key ++ ':' :: t)) := value_write spaced_compact hf 1 (by omega) hcomma
  have hfirstName : (quote f.1).length ≤ m + 2 := by omega
  have hfield := field_writeField (l := .compact) (k := 0) hfirstName hvalue
  have hnone : f.1 ∉ List.map Prod.fst ([] : Fields) := List.not_mem_nil
  have hfirst := fields_first isGap_nil (head_writeField f _) hfield hnone
  refine ⟨m, ?_⟩
  rw [lastField, value_brace]
  rw [List.nil_append] at hfirst
  rw [hfirst, List.nil_append, fields_comma rfl, field_quote (by omega)]
  have hset (v : Json) : Fields.set [f] key v = [f, (key, v)] :=
    Fields.set_eq_append (by simpa using hkey.symm) v
  cases value (m + 3) depth t with
  | error s => rfl
  | ok p =>
    show Except.map _ (fields _ _ _ (Fields.set [f] key p.1) p.2) = _
    rw [hset]
    rfl

/-- A document is the last field of the object around it. -/
theorem value_lastField_ok {f : String × Json} {key : String} {fuel depth : Nat} {t gap rest : Text}
    {j : Json} (hf : Readable depth f.2) (hkey : f.1 ≠ key)
    (hfuel : (lastField f key t).length < fuel) (hgap : IsGap gap)
    (h : value fuel depth t = .ok (j, gap ++ '\x7d' :: rest)) :
    value fuel (depth + 1) (lastField f key t) = .ok (object [f, (key, j)], rest) := by
  obtain ⟨fuel', hvalue⟩ := value_lastField hf hkey hfuel
  rw [hvalue, h]
  show Except.map _ (fields _ _ _ _ (gap ++ '\x7d' :: rest)) = _
  rw [fields_close hgap]
  rfl

/-- What leaves none of the braces that end its objects, or is no document, is no last field of one
either. -/
theorem usesUp_lastField {f : String × Json} {key : String} {fuel depth : Nat} {t : Text}
    (hf : Readable depth f.2) (hkey : f.1 ≠ key) (hfuel : (lastField f key t).length < fuel)
    (h : UsesUp (n + 1) (value fuel depth t)) :
    UsesUp n (value fuel (depth + 1) (lastField f key t)) := by
  obtain ⟨fuel', hvalue⟩ := value_lastField hf hkey hfuel
  rw [hvalue]
  obtain ⟨s, hs⟩ | ⟨j, m, hm, hj⟩ := h
  · rw [hs]
    exact .inl ⟨s, rfl⟩
  · rw [hj]
    obtain ⟨s, hs⟩ | ⟨fs, k, hk, hfields⟩ := usesUp_fields (value fuel depth) (fuel' + 1) true
      [f, (key, j)] m
    · exact .inl ⟨s, congrArg (Except.map _) hs⟩
    · exact .inr ⟨object fs, k, by omega, congrArg (Except.map _) hfields⟩

/-! ## Texts inside objects -/

/-- A text in which the reader meets no list or object beyond `depth` levels. -/
def NestedWithin (depth : Nat) (t : Text) : Prop :=
  ∀ s, value (t.length + 1) depth t = .error s → s.fault ≠ .tooDeep

theorem nestedWithin_pretty {depth : Nat} {j : Json} (h : Readable depth j) :
    NestedWithin depth (pretty j).toList := by
  have hvalue := value_write spaced_pretty h 0 (Nat.lt_succ_self _) (t := []) fun c hc => nomatch hc
  rw [List.append_nil] at hvalue
  intro s hs
  rw [pretty, String.toList_ofList, hvalue] at hs
  cases hs

/-- A text begins with the same document alone and in front of closing braces, or with none. -/
theorem value_nested {depth depth₁ depth₂ fuel : Nat} {t : Text} (hnested : NestedWithin depth t)
    (h₁ : depth ≤ depth₁) (h₂ : depth ≤ depth₂) (hfuel : t.length < fuel) (n : Nat) :
    (∃ j rest, value (t.length + 1) depth₁ t = .ok (j, rest) ∧
      value fuel depth₂ (t ++ braces n) = .ok (j, rest ++ braces n)) ∨
    (∃ s, value (t.length + 1) depth₁ t = .error s) ∧
      UsesUp n (value fuel depth₂ (t ++ braces n)) := by
  have halone := embeds_value (n := 0) h₁ (Nat.lt_succ_self t.length) (Nat.lt_succ_self _)
    (Nat.le_succ _)
  have hinside := embeds_value (n := n) h₂ (Nat.lt_succ_self t.length) hfuel (Nat.le_succ _)
  have hnil (u : Text) : u ++ braces 0 = u := List.append_nil u
  rw [hnil] at halone
  cases hshallow : value (t.length + 1) depth t with
  | ok p =>
    obtain ⟨j, rest⟩ := p
    rw [hshallow] at halone hinside
    have hsame := halone.eq_ok
    rw [hnil] at hsame
    exact .inl ⟨j, rest, hsame, hinside.eq_ok⟩
  | error s =>
    rw [hshallow] at halone hinside
    have hs := hnested s hshallow
    exact .inr ⟨(halone.usesUp hs).eq_error, hinside.usesUp hs⟩

section Nested

variable {f g : String × Json} {key key' : String} {depth : Nat} {t : Text}

theorem isGap_of_skipSpacing {t : Text} (h : skipSpacing t = []) : IsGap t :=
  List.dropWhile_eq_nil_iff.1 h

theorem readText_of_value {j : Json} (h : value (t.length + 1) maxDepth t = .ok (j, [])) :
    readText t = .ok j := by
  rw [readText, h]
  rfl

theorem readText_of_value_error {s : Stop} (h : value (t.length + 1) maxDepth t = .error s) :
    readText t = .error s := by
  rw [readText, h]
  rfl

variable (hf : Readable (maxDepth - 1) f.2) (hg : Readable (maxDepth - 2) g.2) (hkey : f.1 ≠ key)
  (hkey' : g.1 ≠ key') (hnested : NestedWithin depth t) (hdepth : depth ≤ maxDepth - 2)

include hf hg hkey hkey' hnested hdepth

/-- A text is the same document inside objects as alone. -/
theorem readText_nested {j : Json} (h : readText t = .ok j) :
    readText (lastField f key (lastField g key' (t ++ braces 2))) =
      .ok (object [f, (key, object [g, (key', j)])]) := by
  have houter := length_lastField f key (lastField g key' (t ++ braces 2))
  have hinner := length_lastField g key' (t ++ braces 2)
  rw [List.length_append] at hinner
  have halone : depth ≤ maxDepth := Nat.le_trans hdepth (Nat.sub_le _ _)
  have hfuel : t.length < (lastField f key (lastField g key' (t ++ braces 2))).length + 1 := by omega
  obtain ⟨j', rest, hvalue, hinside⟩ | ⟨⟨s, hs⟩, -⟩ := value_nested hnested halone
    hdepth hfuel 2
  · rw [readText, hvalue] at h
    change (if (skipSpacing rest).isEmpty = true then Except.ok j' else _) = _ at h
    split at h
    · next hend =>
      obtain rfl := Except.ok.inj h
      have hdetails := value_lastField_ok hg hkey' (by omega)
        (isGap_of_skipSpacing (List.isEmpty_iff.1 hend)) hinside
      have hrequest := value_lastField_ok hf hkey (Nat.lt_succ_self _) isGap_nil hdetails
      exact readText_of_value hrequest
    · cases h
  · rw [readText, hs] at h
    cases h

/-- A text that is no document, nor begins with one, makes none of the objects around it. -/
theorem readText_nested_error {s : Stop} (h : readText t = .error s)
    (hs : s.fault ≠ .trailingCharacters) :
    ∃ s', readText (lastField f key (lastField g key' (t ++ braces 2))) = .error s' := by
  have houter := length_lastField f key (lastField g key' (t ++ braces 2))
  have hinner := length_lastField g key' (t ++ braces 2)
  rw [List.length_append] at hinner
  have halone : depth ≤ maxDepth := Nat.le_trans hdepth (Nat.sub_le _ _)
  have hfuel : t.length < (lastField f key (lastField g key' (t ++ braces 2))).length + 1 := by omega
  obtain ⟨j, rest, hvalue, -⟩ | ⟨-, hinside⟩ := value_nested hnested halone
    hdepth hfuel 2
  · rw [readText, hvalue] at h
    change (if (skipSpacing rest).isEmpty = true then _ else stopAt _ _) = _ at h
    split at h
    · cases h
    · exact absurd (Except.error.inj h ▸ rfl) hs
  · have hdetails := usesUp_lastField hg hkey' (by omega) hinside
    obtain ⟨s', hs'⟩ := (usesUp_lastField hf hkey (Nat.lt_succ_self _) hdetails).eq_error
    exact ⟨s', readText_of_value_error hs'⟩

end Nested

/-! ## Documents and faults of texts -/

theorem read_eq_ok {s : String} {j : Json} : read s = .ok j ↔ readText s.toList = .ok j := by
  rw [read]
  cases readText s.toList with
  | ok j' => exact ⟨fun h => congrArg _ (Except.ok.inj h), fun h => congrArg _ (Except.ok.inj h)⟩
  | error e => exact iff_of_false (fun h => by cases h) (fun h => by cases h)

theorem read_eq_error {s : String} {e : SyntaxError} (h : read s = .error e) :
    ∃ stop, readText s.toList = .error stop ∧ stop.fault = e.fault := by
  rw [read] at h
  cases hstop : readText s.toList with
  | ok j => rw [hstop] at h; cases h
  | error stop =>
    rw [hstop] at h
    exact ⟨stop, rfl, congrArg SyntaxError.fault (Except.error.inj h)⟩

end SchemaInstaller.Json
