import LineShell.Proofs.Splitting

/-!
Reading a numeral is exact. The whole part is read one digit after the other in 64-bit arithmetic,
and reading stops where the arithmetic overflows. A digit never makes a number smaller, so this
happens at some digit exactly if the whole number is too large, however many zeros it begins with.
Main statement: the texts that are integers or reals, with the values they have; all other texts are
no numerals.
-/

namespace LineShell

theorem digit_of_value {c : Char} {value : Nat} (found : Character.digit? c = some value) :
    isDigit c = true := by
  unfold Character.digit? Character.roles at found
  split at found <;> simp at found <;> rfl

theorem Character.digit_eq (c : Char) :
    Character.digit? c = if isDigit c then some (digitValue c) else none := by
  cases digit : isDigit c with
  | true =>
      have checked : ['0', '1', '2', '3', '4', '5', '6', '7', '8', '9'].all
          (fun c => Character.digit? c == some (digitValue c)) = true := by decide
      have same := List.all_eq_true.mp checked c (Literal.digit_mem digit)
      rw [if_pos rfl]
      exact beq_iff_eq.mp same
  | false =>
      rw [if_neg Bool.false_ne_true, Option.eq_none_iff_forall_ne_some]
      intro value found
      rw [digit_of_value found] at digit
      cases digit

theorem digit_value_lt {c : Char} (digit : isDigit c = true) : digitValue c < 10 := by
  have checked : ['0', '1', '2', '3', '4', '5', '6', '7', '8', '9'].all
      (fun c => digitValue c < 10) = true := by decide
  exact of_decide_eq_true (List.all_eq_true.mp checked c (Literal.digit_mem digit))

theorem digit_is_no_point {c : Char} (digit : isDigit c = true) : (c != '.') = true := by
  rw [bne_iff_ne]
  rintro rfl
  exact absurd digit (by decide)

/-- The number that digits write after a number that has been read. -/
def digitsAfter (value : Nat) (digits : List Char) : Nat :=
  digits.foldl (fun value digit => 10 * value + digitValue digit) value

theorem le_digits_after (value : Nat) (digits : List Char) : value ≤ digitsAfter value digits := by
  induction digits generalizing value with
  | nil => exact Nat.le_refl value
  | cons c rest induction =>
      have longer : 10 * value + digitValue c ≤ digitsAfter value (c :: rest) := induction _
      omega

namespace Numeral

section Arithmetic

variable {a b result : Int64}

/-- A result that is kept back on overflow is the exact number, and it is given whenever the exact
number has 64 bits. -/
theorem guarded_iff {overflow : Bool} {given : Int64} {number : Int}
    (correct : ¬overflow = true → given.toInt = number)
    (needed : ∀ n : Int64, n.toInt = number → ¬overflow = true) :
    (if overflow then none else some given) = some result ↔ result.toInt = number := by
  constructor
  · intro isGiven
    split at isGiven
    · cases isGiven
    · rename_i fits
      cases isGiven
      exact correct fits
  · intro exact
    have fits := needed result exact
    rw [if_neg fits, Option.some.injEq, ← Int64.toInt_inj, exact]
    exact correct fits

theorem product_iff : product? a b = some result ↔ result.toInt = a.toInt * b.toInt := by
  apply guarded_iff BitVec.toInt_mul_of_not_smulOverflow
  intro n exact
  have lower := n.le_toInt
  have upper := n.toInt_lt
  simp only [BitVec.smulOverflow, Int64.toInt_toBitVec, Bool.or_eq_true, decide_eq_true_eq]
  omega

theorem sum_iff : sum? a b = some result ↔ result.toInt = a.toInt + b.toInt := by
  apply guarded_iff BitVec.toInt_add_of_not_saddOverflow
  intro n exact
  have lower := n.le_toInt
  have upper := n.toInt_lt
  simp only [BitVec.saddOverflow, Int64.toInt_toBitVec, Bool.or_eq_true, decide_eq_true_eq]
  omega

theorem of_nat_of_fits {n : Nat} (fits : (n : Int) ≤ Int64.maxValue.toInt) :
    (Int64.ofNat n).toInt = n := by
  have greatest : Int64.maxValue.toInt = 9223372036854775807 := by decide
  apply Int64.toInt_ofNat_of_lt
  omega

end Arithmetic

section Digits

variable {value result : Int64} {size : Nat}

/-- One digit. The product cannot overflow where the sum does not. -/
theorem append_iff (same : value.toInt = size) (c : Char) :
    append? value c = some result ↔
      isDigit c = true ∧ result.toInt = (10 * size + digitValue c : Nat) := by
  have ten : (Int64.ofNat 10).toInt = 10 := by decide
  unfold append?
  rw [Character.digit_eq]
  cases digit : isDigit c with
  | false => simp
  | true =>
      have small := digit_value_lt digit
      have digitExact : (Int64.ofNat (digitValue c)).toInt = digitValue c := by
        apply Int64.toInt_ofNat_of_lt
        omega
      simp only [if_true, Option.bind_eq_bind, Option.bind_some, Option.bind_eq_some_iff, true_and,
        product_iff, sum_iff, same, ten, digitExact]
      constructor
      · rintro ⟨shifted, product, sum⟩
        omega
      · intro exact
        have upper := result.toInt_lt
        refine ⟨Int64.ofNat (10 * size), ?_, ?_⟩
        · rw [Int64.toInt_ofNat_of_lt (by omega)]
          omega
        · rw [Int64.toInt_ofNat_of_lt (by omega)]
          omega

/-- All digits: reading them comes to the end exactly if the whole number has 64 bits, and it gives
this number. -/
theorem fold_append_iff (same : value.toInt = size) (cs : List Char) :
    cs.foldlM append? value = some result ↔
      (∀ c ∈ cs, isDigit c = true) ∧ result.toInt = digitsAfter size cs := by
  induction cs generalizing value size with
  | nil =>
      rw [List.foldlM_nil, Option.pure_def, Option.some.injEq, ← Int64.toInt_inj, same, eq_comm]
      simp [digitsAfter]
  | cons c rest induction =>
      rw [List.foldlM_cons, Option.bind_eq_bind, Option.bind_eq_some_iff, List.forall_mem_cons]
      constructor
      · rintro ⟨next, appended, remaining⟩
        obtain ⟨digit, exact⟩ := (append_iff same c).mp appended
        obtain ⟨digits, whole⟩ := (induction exact).mp remaining
        exact ⟨⟨digit, digits⟩, whole⟩
      · rintro ⟨⟨digit, digits⟩, whole⟩
        -- The number so far is at most the whole one, which has 64 bits.
        have bounded : 10 * size + digitValue c ≤ digitsAfter size (c :: rest) := le_digits_after _ rest
        have upper := result.toInt_lt
        have exact : (Int64.ofNat (10 * size + digitValue c)).toInt =
            (10 * size + digitValue c : Nat) := by
          apply Int64.toInt_ofNat_of_lt
          omega
        exact ⟨_, (append_iff same c).mpr ⟨digit, exact⟩, (induction exact).mpr ⟨digits, whole⟩⟩

end Digits

/-- Digits that write an integer of 64 bits. -/
def IsWhole (cs : List Char) : Prop :=
  isDigits cs = true ∧ (digitsValue cs : Int) ≤ Int64.maxValue.toInt

instance (cs : List Char) : Decidable (IsWhole cs) := inferInstanceAs (Decidable (_ ∧ _))

section Parts

variable {cs whole fraction : List Char}

theorem digits_nonempty (digits : isDigits whole = true) : whole ≠ [] := by
  rintro rfl
  cases digits

theorem digits_all (digits : isDigits whole = true) : ∀ c ∈ whole, isDigit c = true := by
  simp only [isDigits, Bool.and_eq_true] at digits
  exact List.all_eq_true.mp digits.2

theorem digits_begin (digits : isDigits whole = true) :
    ∃ c rest, whole = c :: rest ∧ isDigit c = true := by
  cases whole with
  | nil => cases digits
  | cons c rest => exact ⟨c, rest, rfl, digits_all digits c List.mem_cons_self⟩

theorem whole_iff {n : Int64} : whole? cs = some n ↔ IsWhole cs ∧ n.toInt = digitsValue cs := by
  have zero : (Int64.ofNat 0).toInt = (0 : Nat) := by decide
  have fold := @fold_append_iff (Int64.ofNat 0) n 0 zero cs
  have given : whole? cs = some n ↔ isDigits cs = true ∧ n.toInt = digitsValue cs := by
    cases cs with
    | nil => simp [whole?, isDigits]
    | cons c rest =>
        rw [whole?, if_neg (by simp), fold, isDigits, List.isEmpty_cons, Bool.not_false,
          Bool.true_and, List.all_eq_true]
        rfl
  rw [given]
  constructor
  · rintro ⟨digits, exact⟩
    refine ⟨⟨digits, ?_⟩, exact⟩
    rw [← exact]
    exact n.toInt_le
  · rintro ⟨⟨digits, _⟩, exact⟩
    exact ⟨digits, exact⟩

theorem whole_given (isWhole : IsWhole cs) :
    whole? cs = some (Int64.ofNat (digitsValue cs)) :=
  whole_iff.mpr ⟨isWhole, of_nat_of_fits isWhole.2⟩

/-- Digits come to an end at a point, and before one they go on. -/
theorem digits_before_point (digits : isDigits whole = true) (rest : List Char) :
    (whole ++ rest).takeWhile (· != '.') = whole ++ rest.takeWhile (· != '.') ∧
      (whole ++ rest).dropWhile (· != '.') = rest.dropWhile (· != '.') := by
  have unpointed (c : Char) (member : c ∈ whole) : (c != '.') = true :=
    digit_is_no_point (digits_all digits c member)
  exact ⟨List.takeWhile_append_of_pos unpointed, List.dropWhile_append_of_pos unpointed⟩

theorem read_integer_iff {n : Int64} : readChars cs = some (.integer n) ↔ whole? cs = some n := by
  constructor
  · intro reads
    have parts := @List.takeWhile_append_dropWhile _ (· != '.') cs
    unfold readChars at reads
    dsimp only at reads
    split at reads
    · cases reads
    · rename_i value given ended
      cases reads
      rw [ended, List.append_nil] at parts
      rw [parts] at given
      exact given
    · split at reads <;> cases reads
  · intro given
    obtain ⟨taken, dropped⟩ := digits_before_point (whole_iff.mp given).1.1 []
    rw [List.append_nil, List.takeWhile_nil, List.append_nil] at taken
    rw [List.append_nil, List.dropWhile_nil] at dropped
    simp only [readChars, taken, dropped, given]

theorem read_real_iff {r : Double} :
    readChars cs = some (.real r) ↔ ∃ whole fraction, cs = whole ++ '.' :: fraction ∧
      IsWhole whole ∧ isDigits fraction = true ∧
      r = Double.ofDecimal (Decimal.ofParts false whole fraction 0) := by
  constructor
  · intro reads
    have parts := @List.takeWhile_append_dropWhile _ (· != '.') cs
    unfold readChars at reads
    dsimp only at reads
    split at reads
    · cases reads
    · cases reads
    · rename_i value point fraction given follows
      split at reads
      · rename_i digits
        cases reads
        have isPoint : point = '.' := by
          have stops := @List.head?_dropWhile_not _ (· != '.') cs
          rw [follows] at stops
          simpa using stops
        subst isPoint
        rw [follows] at parts
        exact ⟨_, fraction, parts.symm, (whole_iff.mp given).1, digits, rfl⟩
      · cases reads
  · rintro ⟨whole, fraction, rfl, isWhole, digits, rfl⟩
    obtain ⟨taken, dropped⟩ := digits_before_point isWhole.1 ('.' :: fraction)
    rw [List.takeWhile_cons_of_neg (by decide), List.append_nil] at taken
    rw [List.dropWhile_cons_of_neg (by decide)] at dropped
    simp only [readChars, taken, dropped, whole_given isWhole, digits, if_true]

end Parts

theorem is_integer_iff {text : String} : isInteger text = true ↔ IsWhole text.toList := by
  unfold isInteger
  constructor
  · intro integer
    split at integer
    · rename_i n reads
      exact (whole_iff.mp (read_integer_iff.mp reads)).1
    · cases integer
  · intro isWhole
    rw [read, read_integer_iff.mpr (whole_given isWhole)]

/-- The texts that are reals, and the reals that they are. -/
theorem read_decimal_iff {text : String} {r : Double} :
    read text = some (.real r) ↔ ∃ whole fraction : String, text = whole ++ "." ++ fraction ∧
      IsWhole whole.toList ∧ isDigits fraction.toList = true ∧
      r = Double.ofDecimal (Decimal.ofParts false whole.toList fraction.toList 0) := by
  rw [read, read_real_iff]
  constructor
  · rintro ⟨whole, fraction, split, isWhole, digits, rfl⟩
    refine ⟨String.ofList whole, String.ofList fraction, ?_, ?_⟩
    · rw [← String.toList_inj, split]
      simp
    · rw [String.toList_ofList, String.toList_ofList]
      exact ⟨isWhole, digits, rfl⟩
  · rintro ⟨whole, fraction, rfl, isWhole, digits, rfl⟩
    exact ⟨whole.toList, fraction.toList, by simp, isWhole, digits, rfl⟩

/-- A text is an integer exactly if it is digits that write an integer of 64 bits, and a real exactly
if it is such digits, a point and digits; the integer is the number that the digits write, the real
is the one nearest to the decimal. All other texts are no numerals. -/
theorem numeral_reading_is_exact (text : String) :
    (∀ n : Int64, read text = some (.integer n) ↔
      IsWhole text.toList ∧ n.toInt = digitsValue text.toList) ∧
    (∀ r : Double, read text = some (.real r) ↔
      ∃ whole fraction : String, text = whole ++ "." ++ fraction ∧ IsWhole whole.toList ∧
        isDigits fraction.toList = true ∧
        r = Double.ofDecimal (Decimal.ofParts false whole.toList fraction.toList 0)) ∧
    (read text = none ↔ ¬IsWhole text.toList ∧
      ¬∃ whole fraction : String, text = whole ++ "." ++ fraction ∧ IsWhole whole.toList ∧
        isDigits fraction.toList = true) := by
  have integers (n : Int64) : read text = some (.integer n) ↔
      IsWhole text.toList ∧ n.toInt = digitsValue text.toList := read_integer_iff.trans whole_iff
  refine ⟨integers, fun r => read_decimal_iff, ?_⟩
  constructor
  · intro unread
    constructor
    · intro isWhole
      have reads := (integers _).mpr ⟨isWhole, of_nat_of_fits isWhole.2⟩
      rw [unread] at reads
      cases reads
    · rintro ⟨whole, fraction, split, isWhole, digits⟩
      have reads := read_decimal_iff.mpr ⟨whole, fraction, split, isWhole, digits, rfl⟩
      rw [unread] at reads
      cases reads
  · rintro ⟨noInteger, noReal⟩
    cases reads : read text with
    | none => rfl
    | some numeral =>
        cases numeral with
        | integer n => exact absurd ((integers n).mp reads).1 noInteger
        | real r =>
            obtain ⟨whole, fraction, split, isWhole, digits, _⟩ := read_decimal_iff.mp reads
            exact absurd ⟨whole, fraction, split, isWhole, digits⟩ noReal

end Numeral
end LineShell
