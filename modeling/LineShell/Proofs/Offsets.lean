import LineShell.Literal.Lexer

/-!
Byte offsets. A text of characters begins at some base offset; what stands at an offset is given by
the characters before it. An offset reached this way is a character boundary of the whole text.
-/

namespace LineShell

open Literal (byteSize)

theorem byte_size_foldl (start : Nat) (cs : List Char) :
    cs.foldl (fun size c => size + c.utf8Size) start = start + byteSize cs := by
  induction cs generalizing start with
  | nil => rfl
  | cons c rest induction =>
      have whole : byteSize (c :: rest) = 0 + c.utf8Size + byteSize rest :=
        induction (0 + c.utf8Size)
      rw [List.foldl_cons, induction, whole]
      omega

@[simp] theorem byte_size_nil : byteSize [] = 0 := rfl

@[simp] theorem byte_size_cons (c : Char) (cs : List Char) :
    byteSize (c :: cs) = c.utf8Size + byteSize cs := by
  rw [byteSize, List.foldl_cons, byte_size_foldl, Nat.zero_add]

@[simp] theorem byte_size_append (left right : List Char) :
    byteSize (left ++ right) = byteSize left + byteSize right := by
  induction left with
  | nil => simp
  | cons c rest induction =>
      rw [List.cons_append, byte_size_cons, byte_size_cons, induction]
      omega

theorem byte_size_of_list (cs : List Char) : (String.ofList cs).utf8ByteSize = byteSize cs := by
  induction cs with
  | nil => rfl
  | cons c rest induction =>
      rw [String.ofList_cons, String.utf8ByteSize_append, String.utf8ByteSize_singleton, induction,
        byte_size_cons]

theorem byte_size_to_list (s : String) : byteSize s.toList = s.utf8ByteSize := by
  rw [← byte_size_of_list, String.ofList_toList]

theorem byte_size_pos {cs : List Char} (nonempty : cs ≠ []) : 0 < byteSize cs := by
  cases cs with
  | nil => exact absurd rfl nonempty
  | cons c rest =>
      have positive := c.utf8Size_pos
      rw [byte_size_cons]
      omega

/-- Two beginnings of one text that have the same size are the same. -/
theorem same_size_front {left right after rest : List Char}
    (same : left ++ after = right ++ rest) (size : byteSize left = byteSize right) :
    left = right := by
  rcases List.append_eq_append_iff.mp same with ⟨more, longer, _⟩ | ⟨more, longer, _⟩
  all_goals
    rw [longer, byte_size_append] at size
    by_cases nonempty : more = []
    · rw [longer, nonempty, List.append_nil]
    · have positive := byte_size_pos nonempty
      omega

/-- In characters that begin at offset `base`, `text` stands at `offset`. -/
def StandsAt (base : Nat) (cs : List Char) (offset : Nat) (text : List Char) : Prop :=
  ∃ before after, cs = before ++ text ++ after ∧ base + byteSize before = offset

theorem stands_at_prepend {base offset : Nat} {cs text : List Char} (front : List Char)
    (stands : StandsAt (base + byteSize front) cs offset text) :
    StandsAt base (front ++ cs) offset text := by
  obtain ⟨before, after, same, reached⟩ := stands
  refine ⟨front ++ before, after, ?_, ?_⟩
  · rw [same]
    simp only [List.append_assoc]
  · rw [byte_size_append]
    omega

theorem stands_at_base_le {base offset : Nat} {cs text : List Char}
    (stands : StandsAt base cs offset text) : base ≤ offset := by
  obtain ⟨before, after, same, reached⟩ := stands
  omega

theorem stands_at_end_le {base offset : Nat} {cs text : List Char}
    (stands : StandsAt base cs offset text) :
    offset + byteSize text ≤ base + byteSize cs := by
  obtain ⟨before, after, same, reached⟩ := stands
  rw [same, byte_size_append, byte_size_append]
  omega

theorem stands_at_front {base offset : Nat} {cs front rest : List Char}
    (stands : StandsAt base cs offset (front ++ rest)) : StandsAt base cs offset front := by
  obtain ⟨before, after, same, reached⟩ := stands
  refine ⟨before, rest ++ after, ?_, reached⟩
  rw [same]
  simp only [List.append_assoc]

theorem stands_at_append_cases {base offset : Nat} {front cs : List Char} {c : Char}
    (stands : StandsAt base (front ++ cs) offset [c]) :
    StandsAt base front offset [c] ∨ StandsAt (base + byteSize front) cs offset [c] := by
  obtain ⟨before, after, same, reached⟩ := stands
  rw [List.append_assoc, List.append_eq_append_iff] at same
  rcases same with ⟨between, split, remaining⟩ | ⟨between, split, remaining⟩
  · right
    refine ⟨between, after, ?_, ?_⟩
    · rw [remaining, List.append_assoc]
    · rw [split, byte_size_append] at reached
      omega
  · cases between with
    | nil =>
        right
        refine ⟨[], after, remaining.symm, ?_⟩
        rw [split, List.append_nil, byte_size_nil]
        exact reached
    | cons first others =>
        left
        obtain ⟨rfl, rest⟩ : c = first ∧ after = others ++ cs := by simpa using remaining
        refine ⟨before, others, ?_, reached⟩
        rw [split]
        simp

theorem stands_at_mem {base offset : Nat} {cs : List Char} {c : Char}
    (stands : StandsAt base cs offset [c]) : c ∈ cs := by
  obtain ⟨before, after, rfl, reached⟩ := stands
  simp

/-- Where a text stands is a character boundary of the source. -/
theorem stands_at_boundary {source : String} {offset : Nat} {text : List Char}
    (stands : StandsAt 0 source.toList offset text) :
    String.Pos.Raw.IsValid source ⟨offset⟩ := by
  obtain ⟨before, after, same, reached⟩ := stands
  rw [String.Pos.Raw.isValid_iff_exists_append]
  refine ⟨String.ofList before, String.ofList (text ++ after), ?_, ?_⟩
  · rw [← String.ofList_append, ← List.append_assoc, ← same, String.ofList_toList]
  · apply String.Pos.Raw.ext
    rw [String.byteIdx_rawEndPos, byte_size_of_list, ← reached, Nat.zero_add]

end LineShell
