import SchemaInstaller.Proofs.Text.Tidying

/-!
# Texts cut at bytes

A position that counts bytes may fall into a character, and there a text cannot be cut
(`splitByte`). It can be cut between two characters, which are the positions that are valid in its
UTF-8 bytes (`isSome_splitByte_iff`), and what is between two such positions is a part of the text
(`slice_eq_some_iff`).
-/

namespace SchemaInstaller.Text

theorem byteLength_append (t u : Text) : byteLength (t ++ u) = byteLength t + byteLength u := by
  induction t with
  | nil => exact (Nat.zero_add _).symm
  | cons c r ih => rw [List.cons_append, byteLength_cons, byteLength_cons, ih, Nat.add_assoc]

theorem byteLength_concat (t : Text) (c : Char) :
    byteLength (t ++ [c]) = byteLength t + c.utf8Size := by
  rw [byteLength_append, byteLength_cons]
  rfl

/-- The first `n` bytes of a text and the rest, if no character is cut. -/
def splitByte : Nat → Text → Option (Text × Text)
  | 0, t => some ([], t)
  | _ + 1, [] => none
  | n + 1, c :: r =>
    if c.utf8Size ≤ n + 1 then (splitByte (n + 1 - c.utf8Size) r).map fun (u, v) => (c :: u, v)
    else none

variable {n start stop : Nat} {t u r : Text}

theorem splitByte_append (u r : Text) : splitByte (byteLength u) (u ++ r) = some (u, r) := by
  induction u with
  | nil =>
    show splitByte 0 r = some ([], r)
    rw [splitByte]
  | cons c u ih =>
    have hsize := c.utf8Size_pos
    have hlength := byteLength_cons c u
    obtain ⟨n, hn⟩ : ∃ n, byteLength (c :: u) = n + 1 := ⟨byteLength (c :: u) - 1, by omega⟩
    have hrest : n + 1 - c.utf8Size = byteLength u := by omega
    rw [hn, List.cons_append, splitByte, if_pos (by omega), hrest, ih]
    rfl

theorem splitByte_eq_some_iff : splitByte n t = some (u, r) ↔ t = u ++ r ∧ byteLength u = n := by
  constructor
  · intro h
    induction t generalizing n u with
    | nil =>
      cases n with
      | zero => cases h; exact ⟨rfl, rfl⟩
      | succ n => cases h
    | cons c t ih =>
      cases n with
      | zero => cases h; exact ⟨rfl, rfl⟩
      | succ n =>
        rw [splitByte] at h
        by_cases hc : c.utf8Size ≤ n + 1
        · rw [if_pos hc] at h
          obtain ⟨⟨v, r⟩, hv, heq⟩ := Option.map_eq_some_iff.1 h
          cases heq
          obtain ⟨rfl, hlength⟩ := ih hv
          refine ⟨rfl, ?_⟩
          rw [byteLength_cons, hlength]
          omega
        · rw [if_neg hc] at h
          cases h
  · rintro ⟨rfl, rfl⟩
    exact splitByte_append u r

theorem byteLength_toList (s : String) : byteLength s.toList = s.utf8ByteSize := by
  suffices h : ∀ t : Text, byteLength t = (String.ofList t).utf8ByteSize by
    rw [h, String.ofList_toList]
  intro t
  induction t with
  | nil => rfl
  | cons c t ih =>
    rw [byteLength_cons, ih, String.ofList_cons, String.utf8ByteSize_append,
      String.utf8ByteSize_singleton]

/-- A text can be cut at the positions that are valid in its bytes. -/
theorem isSome_splitByte_iff {s : String} :
    (splitByte n s.toList).isSome = true ↔ String.Pos.Raw.IsValid s ⟨n⟩ := by
  rw [String.Pos.Raw.isValid_iff_exists_append, Option.isSome_iff_exists]
  constructor
  · rintro ⟨⟨u, r⟩, h⟩
    obtain ⟨hsplit, rfl⟩ := splitByte_eq_some_iff.1 h
    refine ⟨String.ofList u, String.ofList r, ?_, ?_⟩
    · rw [← String.ofList_append, ← hsplit, String.ofList_toList]
    · rw [← String.toList_ofList (l := u), byteLength_toList, String.toList_ofList]
      rfl
  · rintro ⟨u, r, rfl, hn⟩
    refine ⟨(u.toList, r.toList), splitByte_eq_some_iff.2 ⟨String.toList_append, ?_⟩⟩
    rw [byteLength_toList]
    exact (congrArg String.Pos.Raw.byteIdx hn).symm

/-- The text between two bytes, if no character is cut. -/
def slice (t : Text) (start stop : Nat) : Option Text :=
  (splitByte start t).bind fun m =>
    if start ≤ stop then (splitByte (stop - start) m.2).map Prod.fst else none

theorem slice_eq_some_iff : slice t start stop = some u ↔
    ∃ a b, t = a ++ (u ++ b) ∧ byteLength a = start ∧ start + byteLength u = stop := by
  unfold slice
  constructor
  · intro h
    obtain ⟨⟨a, r⟩, ha, hrest⟩ := Option.bind_eq_some_iff.1 h
    obtain ⟨rfl, rfl⟩ := splitByte_eq_some_iff.1 ha
    by_cases hle : byteLength a ≤ stop
    · rw [if_pos hle] at hrest
      obtain ⟨⟨v, b⟩, hv, rfl⟩ := Option.map_eq_some_iff.1 hrest
      obtain ⟨rfl, hlength⟩ := splitByte_eq_some_iff.1 hv
      exact ⟨a, b, rfl, rfl, by rw [hlength]; omega⟩
    · rw [if_neg hle] at hrest
      cases hrest
  · rintro ⟨a, b, rfl, rfl, rfl⟩
    rw [splitByte_append, Option.bind_some, if_pos (Nat.le_add_right _ _),
      Nat.add_sub_cancel_left, splitByte_append]
    rfl

/-- The characters of a text, each with the byte it begins at, where the first begins at `i`. -/
def charIndices (i : Nat) : Text → List (Nat × Char)
  | [] => []
  | c :: r => (i, c) :: charIndices (i + c.utf8Size) r

end SchemaInstaller.Text
