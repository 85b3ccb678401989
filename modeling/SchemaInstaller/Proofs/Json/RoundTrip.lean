import SchemaInstaller.Proofs.Json.Scalars

/-!
# Documents are read back as they were written

A written document is read back unchanged (`read_pretty`) if its numbers are whole, no key of an
object stands twice, and it is not nested too deeply (`Readable`). Between its parts a layout may
put spacing only (`Layout.Spaced`).
-/

namespace SchemaInstaller.Json

/-- A document that the reader takes back, with lists and objects nested `depth` levels at most. -/
inductive Readable : Nat → Json → Prop
  | null (depth : Nat) : Readable depth null
  | bool (depth : Nat) (b : Bool) : Readable depth (bool b)
  | integer (depth : Nat) (n : Integer) : Readable depth (number (.integer n))
  | string (depth : Nat) (s : String) : Readable depth (string s)
  | array {depth : Nat} {items : List Json} (hitems : ∀ v ∈ items, Readable depth v) :
    Readable (depth + 1) (array items)
  | object {depth : Nat} {fields : Fields} (hkeys : (fields.map (·.1)).Nodup)
    (hfields : ∀ f ∈ fields, Readable depth f.2) : Readable (depth + 1) (object fields)

/-! ## Spacing -/

/-- A text of spacing only. -/
def IsGap (t : Text) : Prop := ∀ c ∈ t, isSpacing c = true

/-- A layout that adds nothing but spacing. -/
structure Layout.Spaced (l : Layout) : Prop where
  beforeMember : ∀ depth, IsGap (l.beforeMember depth)
  beforeClose : ∀ depth, IsGap (l.beforeClose depth)
  afterColon : IsGap l.afterColon

theorem isGap_nil : IsGap [] := fun _ h => nomatch h

theorem isGap_newLine (depth : Nat) : IsGap (newLine depth) := by
  intro c hc
  rcases List.mem_cons.1 hc with rfl | hc
  · rfl
  · rw [List.eq_of_mem_replicate hc]
    rfl

theorem spaced_pretty : Layout.pretty.Spaced where
  beforeMember depth := isGap_newLine (depth + 1)
  beforeClose := isGap_newLine
  afterColon c hc := by
    rw [List.mem_singleton.1 hc]
    rfl

/-- Spacing is skipped up to the first other character. -/
theorem skipSpacing_gap {gap : Text} (hgap : IsGap gap) {c : Char} (hc : isSpacing c = false)
    (r : Text) : skipSpacing (gap ++ c :: r) = c :: r := by
  induction gap with
  | nil => exact skipSpacing_cons hc r
  | cons d gap ih =>
    have hd : isSpacing d = true := hgap d List.mem_cons_self
    rw [List.cons_append, skipSpacing, List.dropWhile_cons, hd, if_pos rfl]
    exact ih fun e he => hgap e (List.mem_cons_of_mem d he)

/-- Spacing ends a number. -/
theorem endsNumber_gap {gap t : Text} (hgap : IsGap gap) (ht : EndsNumber t) :
    EndsNumber (gap ++ t) := by
  cases gap with
  | nil => exact ht
  | cons c gap =>
    have hc : isSpacing c = true := hgap c List.mem_cons_self
    simp only [isSpacing, Bool.or_eq_true, beq_iff_eq] at hc
    rcases hc with ((rfl | rfl) | rfl) | rfl <;> exact endsNumber_cons _ (by decide)

/-- A text that starts with the first character of a value. -/
def StartsValue (t : Text) : Prop :=
  ∃ c r, t = c :: r ∧ isSpacing c = false ∧ c ≠ ']'

theorem StartsValue.append {t : Text} (h : StartsValue t) (u : Text) : StartsValue (t ++ u) := by
  obtain ⟨c, r, rfl, hc⟩ := h
  exact ⟨c, r ++ u, rfl, hc⟩

/-- Spacing before a value does not matter. -/
theorem skipSpacing_value {gap t : Text} (hgap : IsGap gap) (ht : StartsValue t) :
    skipSpacing (gap ++ t) = t := by
  obtain ⟨c, r, rfl, hc, -⟩ := ht
  exact skipSpacing_gap hgap hc r

theorem value_gap {gap t : Text} (hgap : IsGap gap) (ht : StartsValue t) (fuel depth : Nat) :
    value fuel depth (gap ++ t) = value fuel depth t := by
  have hskip := skipSpacing_value isGap_nil ht
  rw [List.nil_append] at hskip
  rw [value.eq_def fuel depth (gap ++ t), value.eq_def fuel depth t, skipSpacing_value hgap ht,
    hskip]

theorem startsValue_write {depth : Nat} {j : Json} (h : Readable depth j) (l : Layout) (k : Nat) :
    StartsValue (write l k j) := by
  cases h with
  | null => exact ⟨'n', "ull".toList, rfl, by decide, by decide⟩
  | bool _ b =>
    cases b with
    | true => exact ⟨'t', "rue".toList, rfl, by decide, by decide⟩
    | false => exact ⟨'f', "alse".toList, rfl, by decide, by decide⟩
  | integer _ n =>
    obtain ⟨c, r, hr, hc | rfl⟩ := toText_integer_cons n
    · exact ⟨c, r, hr, isSpacing_of_isDigit hc, ne_of_isDigit hc rfl⟩
    · exact ⟨'-', r, hr, by decide, by decide⟩
  | string _ s => exact ⟨_, _, rfl, by decide, by decide⟩
  | @array _ items =>
    cases items with
    | nil => exact ⟨_, _, String.toList_ofList, by decide, by decide⟩
    | cons v r => exact ⟨'[', _, rfl, by decide, by decide⟩
  | @object _ fields =>
    cases fields with
    | nil => exact ⟨_, _, String.toList_ofList, by decide, by decide⟩
    | cons f r => exact ⟨'\x7b', _, rfl, by decide, by decide⟩

/-! ## Lists -/

theorem items_close {read : Text → Except Stop (Parsed Json)} {gap : Text} (hgap : IsGap gap)
    (fuel : Nat) (later : Bool) (done : List Json) (rest : Text) :
    items read (fuel + 1) later done (gap ++ ']' :: rest) = .ok (done.reverse, rest) := by
  rw [items, skipSpacing_gap hgap (by decide)]
  rfl

theorem items_first {read : Text → Except Stop (Parsed Json)} {gap t rest : Text} {v : Json}
    (hgap : IsGap gap) (ht : StartsValue t) (hread : read t = .ok (v, rest)) (fuel : Nat)
    (done : List Json) :
    items read (fuel + 1) false done (gap ++ t) = items read fuel true (v :: done) rest := by
  obtain ⟨c, r, rfl, hc, hbracket⟩ := ht
  rw [items, skipSpacing_gap hgap hc]
  simp only [beq_eq_false_iff_ne.2 hbracket, Bool.false_eq_true, if_false, Bool.not_false, if_true,
    hread]
  rfl

theorem items_next {read : Text → Except Stop (Parsed Json)} {gap t rest : Text} {v : Json}
    (hgap : IsGap gap) (ht : StartsValue t) (hread : read t = .ok (v, rest)) (fuel : Nat)
    (done : List Json) :
    items read (fuel + 1) true done (',' :: (gap ++ t)) =
      items read fuel true (v :: done) rest := by
  obtain ⟨c, r, rfl, hc, hbracket⟩ := ht
  have hcomma : (',' == ']') = false := by decide
  rw [items, skipSpacing_cons (by decide)]
  simp only [hcomma, Bool.false_eq_true, if_false, Bool.not_true, beq_self_eq_true, if_true,
    skipSpacing_gap hgap hc, beq_eq_false_iff_ne.2 hbracket, hread]
  rfl

variable {l : Layout} {k : Nat}

theorem endsNumber_writeItems (hl : l.Spaced) (vs : List Json) (rest : Text) :
    EndsNumber (writeItems l k vs ++ (l.beforeClose k ++ ']' :: rest)) := by
  cases vs with
  | nil =>
    have hclose : EndsNumber (']' :: rest) := endsNumber_cons rest (by decide)
    rw [writeItems, List.nil_append]
    exact endsNumber_gap (hl.beforeClose k) hclose
  | cons v r => exact endsNumber_cons _ (by decide)

theorem length_write_lt {vs : List Json} {v : Json} (h : v ∈ vs) :
    (write l (k + 1) v).length < (writeItems l k vs).length := by
  induction h with
  | head r =>
    simp only [writeItems, List.length_cons, List.length_append]
    omega
  | tail w _ ih =>
    simp only [writeItems, List.length_cons, List.length_append]
    omega

/-- The items behind the first one are read up to the closing bracket. -/
theorem items_writeItems {read : Text → Except Stop (Parsed Json)} (hl : l.Spaced)
    {vs : List Json} (hstarts : ∀ v ∈ vs, StartsValue (write l (k + 1) v))
    (hread : ∀ v ∈ vs, ∀ t, EndsNumber t → read (write l (k + 1) v ++ t) = .ok (v, t))
    {fuel : Nat} (hfuel : (writeItems l k vs).length < fuel) (done : List Json) (rest : Text) :
    items read fuel true done (writeItems l k vs ++ (l.beforeClose k ++ ']' :: rest)) =
      .ok (done.reverse ++ vs, rest) := by
  induction vs generalizing fuel done with
  | nil =>
    obtain ⟨n, rfl⟩ : ∃ n, fuel = n + 1 := Nat.exists_eq_add_one_of_ne_zero (by omega)
    rw [List.append_nil]
    exact items_close (hl.beforeClose k) n true done rest
  | cons v r ih =>
    have hlength : (writeItems l k r).length + 1 ≤ (writeItems l k (v :: r)).length := by
      simp only [writeItems, List.length_cons, List.length_append]
      omega
    obtain ⟨n, rfl⟩ : ∃ n, fuel = n + 1 := Nat.exists_eq_add_one_of_ne_zero (by omega)
    have hnext := hread v List.mem_cons_self _ (endsNumber_writeItems (k := k) hl r rest)
    rw [writeItems, List.append_assoc, List.cons_append, List.cons_append, List.append_assoc]
    rw [items_next (hl.beforeMember k) ((hstarts v List.mem_cons_self).append _) hnext]
    rw [ih (fun w hw => hstarts w (List.mem_cons_of_mem v hw))
      (fun w hw => hread w (List.mem_cons_of_mem v hw)) (by omega)]
    rw [List.reverse_cons, List.append_assoc]
    rfl

/-! ## Objects -/

/-- A key that is not there is set at the end. -/
theorem Fields.set_eq_append {fields : Fields} {key : String} (h : key ∉ fields.map (·.1))
    (v : Json) : fields.set key v = fields ++ [(key, v)] := by
  induction fields with
  | nil => rfl
  | cons f r ih =>
    obtain ⟨name, w⟩ := f
    rw [List.map_cons, List.mem_cons, not_or] at h
    have hne : (name == key) = false := beq_eq_false_iff_ne.2 (Ne.symm h.1)
    rw [Fields.set, hne, ih h.2]
    rfl

theorem length_lt_quote (s : String) : s.toList.length < (quote s).length := by
  have hle (t : Text) : t.length ≤ (t.flatMap escapeChar).length := by
    induction t with
    | nil => exact Nat.le_refl 0
    | cons c r ih =>
      have hc : 0 < (escapeChar c).length := by
        obtain ⟨e, hc, -⟩ | ⟨hc, -⟩ | ⟨hc, -⟩ := escapeChar_cases c <;>
          exact hc ▸ Nat.succ_pos _
      rw [List.flatMap_cons, List.length_append, List.length_cons]
      omega
  have := hle s.toList
  simp only [quote, List.length_append, List.length_cons, List.length_nil]
  omega

/-- A written key and its value are read back. -/
theorem field_writeField {read : Text → Except Stop (Parsed Json)} {f : String × Json} {t : Text}
    {fuel : Nat} (hfuel : (quote f.1).length ≤ fuel)
    (hread : read (l.afterColon ++ (write l (k + 1) f.2 ++ t)) = .ok (f.2, t)) :
    field read fuel (writeField l k f ++ t) = .ok (f, t) := by
  obtain ⟨key, v⟩ := f
  have hkey : key.toList.length < fuel := Nat.lt_of_lt_of_le (length_lt_quote key) hfuel
  have hstring := stringBody_quote hkey [] (':' :: (l.afterColon ++ (write l (k + 1) v ++ t)))
  have htext : writeField l k (key, v) ++ t = '\x22' :: (key.toList.flatMap escapeChar ++
      '\x22' :: ':' :: (l.afterColon ++ (write l (k + 1) v ++ t))) := by
    simp only [writeField, quote, List.append_assoc, List.cons_append, List.nil_append]
  have hmark (u : Text) : skipSpacing (':' :: u) = ':' :: u := skipSpacing_cons rfl u
  rw [htext, field, if_neg (by decide), readString, hstring]
  simp only [bind, Except.bind, hmark, hread, List.reverse_nil, List.nil_append,
    String.ofList_toList]
  rfl

theorem fields_close {read : Text → Except Stop (Parsed Json)} {gap : Text} (hgap : IsGap gap)
    (fuel : Nat) (later : Bool) (done : Fields) (rest : Text) :
    fields read (fuel + 1) later done (gap ++ '\x7d' :: rest) = .ok (done, rest) := by
  rw [fields, skipSpacing_gap hgap (by decide)]
  rfl

theorem fields_first {read : Text → Except Stop (Parsed Json)} {gap t rest : Text}
    {f : String × Json} {fuel : Nat} {done : Fields} (hgap : IsGap gap) (ht : t.head? = some '\x22')
    (hread : field read fuel t = .ok (f, rest)) (hnew : f.1 ∉ done.map (·.1)) :
    fields read (fuel + 1) false done (gap ++ t) = fields read fuel true (done ++ [f]) rest := by
  obtain ⟨r, rfl⟩ := List.head?_eq_some_iff.1 ht
  have hbrace : ('\x22' == '\x7d') = false := by decide
  rw [fields, skipSpacing_gap hgap (by decide)]
  simp only [hbrace, Bool.false_eq_true, if_false, Bool.not_false, if_true, hread]
  show fields read fuel true (done.set f.1 f.2) rest = _
  rw [Fields.set_eq_append hnew]

theorem fields_next {read : Text → Except Stop (Parsed Json)} {gap t rest : Text}
    {f : String × Json} {fuel : Nat} {done : Fields} (hgap : IsGap gap) (ht : t.head? = some '\x22')
    (hread : field read fuel t = .ok (f, rest)) (hnew : f.1 ∉ done.map (·.1)) :
    fields read (fuel + 1) true done (',' :: (gap ++ t)) =
      fields read fuel true (done ++ [f]) rest := by
  obtain ⟨r, rfl⟩ := List.head?_eq_some_iff.1 ht
  have hcomma : (',' == '\x7d') = false := by decide
  have hbrace : ('\x22' == '\x7d') = false := by decide
  rw [fields, skipSpacing_cons (by decide)]
  simp only [hcomma, hbrace, Bool.false_eq_true, if_false, Bool.not_true, beq_self_eq_true, if_true,
    skipSpacing_gap hgap (c := '\x22') (by decide), hread]
  show fields read fuel true (done.set f.1 f.2) rest = _
  rw [Fields.set_eq_append hnew]

theorem endsNumber_writeFields (hl : l.Spaced) (fs : Fields) (rest : Text) :
    EndsNumber (writeFields l k fs ++ (l.beforeClose k ++ '\x7d' :: rest)) := by
  cases fs with
  | nil =>
    have hclose : EndsNumber ('\x7d' :: rest) := endsNumber_cons rest (by decide)
    rw [writeFields, List.nil_append]
    exact endsNumber_gap (hl.beforeClose k) hclose
  | cons f r => exact endsNumber_cons _ (by decide)

theorem head_writeField (f : String × Json) (t : Text) :
    (writeField l k f ++ t).head? = some '\x22' := by
  obtain ⟨key, v⟩ := f
  rw [writeField]
  rfl

theorem length_quote_le_writeField (f : String × Json) :
    (quote f.1).length ≤ (writeField l k f).length := by
  obtain ⟨key, v⟩ := f
  rw [writeField, List.append_assoc, List.length_append]
  exact Nat.le_add_right _ _

theorem length_writeField_lt {fs : Fields} {f : String × Json} (h : f ∈ fs) :
    (writeField l k f).length < (writeFields l k fs).length := by
  induction h with
  | head r =>
    simp only [writeFields, List.length_cons, List.length_append]
    omega
  | tail g _ ih =>
    simp only [writeFields, List.length_cons, List.length_append]
    omega

theorem length_write_le_writeField (f : String × Json) :
    (write l (k + 1) f.2).length ≤ (writeField l k f).length := by
  obtain ⟨key, v⟩ := f
  rw [writeField, List.length_append]
  exact Nat.le_add_left _ _

/-- The fields behind the first one are read up to the closing brace. -/
theorem fields_writeFields {read : Text → Except Stop (Parsed Json)} (hl : l.Spaced) {fs : Fields}
    (hread : ∀ f ∈ fs, ∀ t, EndsNumber t →
      read (l.afterColon ++ (write l (k + 1) f.2 ++ t)) = .ok (f.2, t))
    {fuel : Nat} (hfuel : (writeFields l k fs).length < fuel) {done : Fields}
    (hkeys : ((done ++ fs).map (·.1)).Nodup) (rest : Text) :
    fields read fuel true done (writeFields l k fs ++ (l.beforeClose k ++ '\x7d' :: rest)) =
      .ok (done ++ fs, rest) := by
  induction fs generalizing fuel done with
  | nil =>
    obtain ⟨n, rfl⟩ : ∃ n, fuel = n + 1 := Nat.exists_eq_add_one_of_ne_zero (by omega)
    rw [List.append_nil]
    exact fields_close (hl.beforeClose k) n true done rest
  | cons f r ih =>
    have hlength : (writeField l k f).length + (writeFields l k r).length + 1 ≤
        (writeFields l k (f :: r)).length := by
      simp only [writeFields, List.length_cons, List.length_append]
      omega
    obtain ⟨n, rfl⟩ : ∃ n, fuel = n + 1 := Nat.exists_eq_add_one_of_ne_zero (by omega)
    have hkey : (quote f.1).length ≤ n := by
      have := length_quote_le_writeField (l := l) (k := k) f
      omega
    have hnew : f.1 ∉ done.map (·.1) := by
      rw [List.map_append, List.map_cons, List.nodup_append] at hkeys
      exact fun h => hkeys.2.2 f.1 h f.1 List.mem_cons_self rfl
    have hnext := field_writeField hkey
      (hread f List.mem_cons_self _ (endsNumber_writeFields (k := k) hl r rest))
    rw [writeFields, List.append_assoc, List.cons_append, List.cons_append, List.append_assoc]
    rw [fields_next (hl.beforeMember k) (head_writeField f _) hnext hnew]
    have hrest : (writeFields l k r).length < n := by omega
    rw [List.append_cons done f r] at hkeys ⊢
    exact ih (fun g hg => hread g (List.mem_cons_of_mem f hg)) hrest hkeys

/-! ## Values -/

theorem word_append (w t : Text) : word w (w ++ t) = .ok ((), t) := by
  induction w with
  | nil => cases t <;> rfl
  | cons c r ih =>
    rw [List.cons_append, word, if_pos (beq_self_eq_true c)]
    exact ih

theorem value_quote (fuel depth : Nat) (t : Text) :
    value fuel depth ('\x22' :: t) = (readString fuel t).map fun (s, rest) => (string s, rest) := by
  unfold value
  rw [skipSpacing_cons rfl]
  rfl

theorem value_bracket (fuel depth : Nat) (t : Text) :
    value fuel (depth + 1) ('[' :: t) =
      (items (value fuel depth) fuel false [] t).map fun (vs, rest) => (array vs, rest) := by
  rw [value, skipSpacing_cons rfl]
  rfl

theorem value_brace (fuel depth : Nat) (t : Text) :
    value fuel (depth + 1) ('\x7b' :: t) =
      (fields (value fuel depth) fuel false [] t).map fun (fs, rest) => (object fs, rest) := by
  rw [value, skipSpacing_cons rfl]
  rfl

theorem value_n (fuel depth : Nat) (t : Text) :
    value fuel depth ('n' :: t) =
      (word "ull".toList t).map fun (_, rest) => (null, rest) := by
  unfold value
  rw [skipSpacing_cons rfl]
  rfl

theorem value_null (fuel depth : Nat) (t : Text) :
    value fuel depth ("null".toList ++ t) = .ok (null, t) := by
  have hword := value_n fuel depth ("ull".toList ++ t)
  rw [word_append] at hword
  exact hword

theorem value_t (fuel depth : Nat) (t : Text) :
    value fuel depth ('t' :: t) =
      (word "rue".toList t).map fun (_, rest) => (bool true, rest) := by
  unfold value
  rw [skipSpacing_cons rfl]
  rfl

theorem value_true (fuel depth : Nat) (t : Text) :
    value fuel depth ("true".toList ++ t) = .ok (bool true, t) := by
  have hword := value_t fuel depth ("rue".toList ++ t)
  rw [word_append] at hword
  exact hword

theorem value_f (fuel depth : Nat) (t : Text) :
    value fuel depth ('f' :: t) =
      (word "alse".toList t).map fun (_, rest) => (bool false, rest) := by
  unfold value
  rw [skipSpacing_cons rfl]
  rfl

theorem value_false (fuel depth : Nat) (t : Text) :
    value fuel depth ("false".toList ++ t) = .ok (bool false, t) := by
  have hword := value_f fuel depth ("alse".toList ++ t)
  rw [word_append] at hword
  exact hword

theorem length_item_lt {vs : List Json} {v : Json} (h : v ∈ vs) :
    (write l (k + 1) v).length < (write l k (array vs)).length := by
  cases vs with
  | nil => exact nomatch h
  | cons w r =>
    simp only [write, List.length_cons, List.length_append]
    rcases List.mem_cons.1 h with rfl | hr
    · omega
    · have := length_write_lt (l := l) (k := k) hr
      omega

/-- A list is read if its items are. -/
theorem value_array (hl : l.Spaced) {vs : List Json} {fuel depth : Nat}
    (hstarts : ∀ v ∈ vs, StartsValue (write l (k + 1) v))
    (hread : ∀ v ∈ vs, ∀ t, EndsNumber t →
      value fuel depth (write l (k + 1) v ++ t) = .ok (v, t))
    (hfuel : (write l k (array vs)).length < fuel) (t : Text) :
    value fuel (depth + 1) (write l k (array vs) ++ t) = .ok (array vs, t) := by
  obtain ⟨n, rfl⟩ : ∃ n, fuel = n + 1 := Nat.exists_eq_add_one_of_ne_zero (by omega)
  cases vs with
  | nil =>
    have htext : write l k (array []) ++ t = '[' :: ([] ++ ']' :: t) := rfl
    rw [htext, value_bracket, items_close isGap_nil]
    rfl
  | cons v r =>
    have htext : write l k (array (v :: r)) ++ t = '[' :: (l.beforeMember k ++
        (write l (k + 1) v ++ (writeItems l k r ++ (l.beforeClose k ++ ']' :: t)))) := by
      simp only [write, List.append_assoc, List.cons_append, List.nil_append]
    have hrest : (writeItems l k r).length < n := by
      simp only [write, List.length_cons, List.length_append] at hfuel
      omega
    have hfirst := hread v List.mem_cons_self _ (endsNumber_writeItems (k := k) hl r t)
    rw [htext, value_bracket, items_first (hl.beforeMember k)
      ((hstarts v List.mem_cons_self).append _) hfirst]
    rw [items_writeItems hl (fun w hw => hstarts w (List.mem_cons_of_mem v hw))
      (fun w hw => hread w (List.mem_cons_of_mem v hw)) hrest]
    rfl

theorem length_member_lt {fs : Fields} {f : String × Json} (h : f ∈ fs) :
    (write l (k + 1) f.2).length < (write l k (object fs)).length := by
  have hle := length_write_le_writeField (l := l) (k := k) f
  cases fs with
  | nil => exact nomatch h
  | cons g r =>
    simp only [write, List.length_cons, List.length_append]
    rcases List.mem_cons.1 h with rfl | hr
    · omega
    · have := length_writeField_lt (l := l) (k := k) hr
      omega

/-- An object is read if its values are and no key stands twice. -/
theorem value_object (hl : l.Spaced) {fs : Fields} {fuel depth : Nat}
    (hkeys : (fs.map (·.1)).Nodup) (hstarts : ∀ f ∈ fs, StartsValue (write l (k + 1) f.2))
    (hread : ∀ f ∈ fs, ∀ t, EndsNumber t →
      value fuel depth (write l (k + 1) f.2 ++ t) = .ok (f.2, t))
    (hfuel : (write l k (object fs)).length < fuel) (t : Text) :
    value fuel (depth + 1) (write l k (object fs) ++ t) = .ok (object fs, t) := by
  obtain ⟨n, rfl⟩ : ∃ n, fuel = n + 1 := Nat.exists_eq_add_one_of_ne_zero (by omega)
  cases fs with
  | nil =>
    have htext : write l k (object []) ++ t = '\x7b' :: ([] ++ '\x7d' :: t) := rfl
    rw [htext, value_brace, fields_close isGap_nil]
    rfl
  | cons f r =>
    have htext : write l k (object (f :: r)) ++ t = '\x7b' :: (l.beforeMember k ++
        (writeField l k f ++ (writeFields l k r ++ (l.beforeClose k ++ '\x7d' :: t)))) := by
      simp only [write, List.append_assoc, List.cons_append, List.nil_append]
    have hlength : (writeField l k f).length + (writeFields l k r).length < n := by
      simp only [write, List.length_cons, List.length_append] at hfuel
      omega
    have hkey : (quote f.1).length ≤ n := by
      have := length_quote_le_writeField (l := l) (k := k) f
      omega
    have hrest : (writeFields l k r).length < n := by omega
    have hspaced : ∀ g ∈ f :: r, ∀ u, EndsNumber u →
        value (n + 1) depth (l.afterColon ++ (write l (k + 1) g.2 ++ u)) = .ok (g.2, u) := by
      intro g hg u hu
      rw [value_gap hl.afterColon ((hstarts g hg).append u)]
      exact hread g hg u hu
    have hfirst := field_writeField hkey
      (hspaced f List.mem_cons_self _ (endsNumber_writeFields (k := k) hl r t))
    rw [htext, value_brace, fields_first (hl.beforeMember k) (head_writeField f _) hfirst
      List.not_mem_nil]
    rw [List.nil_append, fields_writeFields hl
      (fun g hg => hspaced g (List.mem_cons_of_mem f hg)) hrest hkeys]
    rfl

/-- A written value is read as itself. -/
theorem value_write (hl : l.Spaced) {depth : Nat} {j : Json} (hj : Readable depth j) (k : Nat)
    {fuel : Nat} (hfuel : (write l k j).length < fuel) {t : Text} (ht : EndsNumber t) :
    value fuel depth (write l k j ++ t) = .ok (j, t) := by
  induction hj generalizing k t with
  | null => exact value_null fuel _ t
  | bool _ b =>
    cases b with
    | true => exact value_true fuel _ t
    | false => exact value_false fuel _ t
  | integer _ n => exact value_number n fuel _ ht
  | string _ s =>
    have hs : s.toList.length < fuel := Nat.lt_trans (length_lt_quote s) hfuel
    rw [write, quote, List.append_assoc, List.cons_append, value_quote, readString]
    rw [List.singleton_append, stringBody_quote hs, List.reverse_nil, List.nil_append,
      String.ofList_toList]
    rfl
  | array hitems ih =>
    have hread : ∀ v ∈ _, ∀ u, EndsNumber u → _ := fun v hv u hu =>
      ih v hv (k + 1) (Nat.lt_trans (length_item_lt hv) hfuel) hu
    exact value_array hl (fun v hv => startsValue_write (hitems v hv) l (k + 1)) hread hfuel t
  | object hkeys hfields ih =>
    have hread : ∀ f ∈ _, ∀ u, EndsNumber u → _ := fun f hf u hu =>
      ih f hf (k + 1) (Nat.lt_trans (length_member_lt hf) hfuel) hu
    exact value_object hl hkeys (fun f hf => startsValue_write (hfields f hf) l (k + 1)) hread
      hfuel t

/-- A readable document that is written over many lines is read back unchanged. -/
theorem read_pretty {j : Json} (h : Readable maxDepth j) : read (pretty j) = .ok j := by
  have hend : EndsNumber [] := fun c hc => nomatch hc
  have hvalue := value_write spaced_pretty h 0 (Nat.lt_succ_self _) hend
  rw [List.append_nil] at hvalue
  have htext : readText (write .pretty 0 j) = .ok j := by
    rw [readText, hvalue]
    rfl
  rw [read, pretty, String.toList_ofList, htext]
  rfl

end SchemaInstaller.Json
