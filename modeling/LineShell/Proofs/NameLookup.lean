import LineShell.Proofs.Assignment
import LineShell.Proofs.NumeralReading
import LineShell.Proofs.Rendering

/-!
Names that were assigned to are found again. The name that is bound is what the scanner read without
the blanks at its ends; it may have other blanks in it, or a point after an integer. Main statement:
right after an assignment the bound name, as a line of its own, is the entry just bound, and in a
literal it stands for the source of that entry.
-/

namespace LineShell

open Literal (IsIdentifier keywords)

namespace Text

theorem mem_of_mem_trim {cs : List Char} {c : Char} (member : c ∈ trimChars cs) : c ∈ cs := by
  have dropped := (List.dropWhile_sublist isBlank).mem (List.mem_reverse.mp member)
  exact (List.dropWhile_sublist isBlank).mem (List.mem_reverse.mp dropped)

theorem trim_begins {cs : List Char} (unblank : cs.dropWhile isBlank = cs) :
    trimChars cs <+: cs := by
  have ends := List.reverse_prefix.mpr (List.dropWhile_suffix isBlank (l := cs.reverse))
  rw [List.reverse_reverse] at ends
  rw [trimChars, unblank]
  exact ends

end Text

section Words

variable {text : String}

theorem digit_unblank {c : Char} (digit : isDigit c = true) : Text.isBlank c = false := by
  have unblank : ['0', '1', '2', '3', '4', '5', '6', '7', '8', '9'].all
      (fun c => !Text.isBlank c) = true := by decide
  simpa using List.all_eq_true.mp unblank c (Literal.digit_mem digit)

theorem integer_begins (integer : Numeral.isInteger text = true) :
    ∃ c rest, text.toList = c :: rest ∧ isDigit c = true :=
  Numeral.digits_begin (Numeral.is_integer_iff.mp integer).1

theorem word_begins (word : IsWord text) : text.toList.all isNameCharacter = true ∨
    ∃ c rest, text.toList = c :: rest ∧ isDigit c = true := by
  induction word with
  | first character =>
      apply Or.inl
      rw [String.toList_singleton, List.all_cons, character]
      rfl
  | next _ character induction =>
      rw [String.toList_push]
      rcases induction with all | ⟨c, rest, split, digit⟩
      · exact .inl (by simp [all, character])
      · exact .inr ⟨c, rest ++ [_], by rw [split, List.cons_append], digit⟩
  | point _ integer _ =>
      obtain ⟨c, rest, split, digit⟩ := integer_begins integer
      rw [String.toList_push]
      exact .inr ⟨c, rest ++ ['.'], by rw [split, List.cons_append], digit⟩

theorem word_append (word : IsWord text) {cs : List Char}
    (characters : cs.all isNameCharacter = true) : IsWord (text ++ String.ofList cs) := by
  induction cs generalizing text with
  | nil => rwa [String.ofList_nil, String.append_empty]
  | cons c rest induction =>
      rw [List.all_cons, Bool.and_eq_true] at characters
      have longer : text.push c ++ String.ofList rest = text ++ String.ofList (c :: rest) := by
        rw [String.ofList_cons, ← String.append_assoc, String.append_singleton]
      rw [← longer]
      exact induction (word.next characters.1) characters.2

theorem characters_word {cs : List Char} (nonempty : cs ≠ [])
    (characters : cs.all isNameCharacter = true) : IsWord (String.ofList cs) := by
  cases cs with
  | nil => exact absurd rfl nonempty
  | cons c rest =>
      rw [List.all_cons, Bool.and_eq_true] at characters
      rw [String.ofList_cons]
      exact word_append (.first characters.1) characters.2

theorem beginning_word (word : IsWord text) {front : List Char} (begins : front <+: text.toList)
    (nonempty : front ≠ []) : IsWord (String.ofList front) := by
  induction word with
  | @first c character =>
      rw [String.toList_singleton, ← List.nil_append [c], List.prefix_concat_iff,
        List.prefix_nil] at begins
      obtain rfl := begins.resolve_right nonempty
      exact .first character
  | @next text c word character induction =>
      rw [String.toList_push, List.prefix_concat_iff] at begins
      rcases begins with rfl | shorter
      · rw [← String.toList_push, String.ofList_toList]
        exact word.next character
      · exact induction shorter
  | @point text word integer induction =>
      rw [String.toList_push, List.prefix_concat_iff] at begins
      rcases begins with rfl | shorter
      · rw [← String.toList_push, String.ofList_toList]
        exact word.point integer
      · exact induction shorter

theorem trimmed_word (word : IsWord text) (nonempty : Text.trim text ≠ "") :
    IsWord (Text.trim text) := by
  have left : Text.trimChars text.toList ≠ [] := by
    intro nothing
    apply nonempty
    rw [Text.trim, nothing, String.ofList_nil]
  rcases word_begins word with all | ⟨c, rest, split, digit⟩
  · rw [List.all_eq_true] at all
    apply characters_word left
    rw [List.all_eq_true]
    intro c member
    exact all c (Text.mem_of_mem_trim member)
  · have unblank : text.toList.dropWhile Text.isBlank = text.toList := by
      rw [split, List.dropWhile_cons, digit_unblank digit, if_neg Bool.false_ne_true]
    exact beginning_word word (Text.trim_begins unblank) left

theorem word_scans (word : IsWord text) : scan text = .ok [⟨.name text, 0⟩] := by
  have reads := Scanner.word_reads word (s := .start) rfl rfl 0 []
  have ends := Scanner.collect_finished (s := .word 0 text) rfl (0 + Literal.byteSize text.toList)
  rw [List.append_nil, ends] at reads
  exact reads

end Words

section Lookup

variable {env : Environment} {name : String} {shared : Shared}

theorem word_evaluates (word : IsWord name) {token : Token}
    (resolves : (Token.name name).resolve env 0 = .ok token) :
    evaluate env name = ⟨.ok (.completed [token]), none, env⟩ := by
  have results := Scanner.collected_results (word_scans word)
  obtain ⟨⟨result, depth⟩, pulls, rfl⟩ := List.map_eq_singleton_iff.mp results
  rw [evaluate, pulls]
  simp only [Evaluation.consume, Pending.push, resolves, reduce_single]
  rfl

theorem bound_word_evaluates (word : IsWord name) (trimmed : Text.trim name = name)
    (unread : Numeral.read name = none) (bound : env.resolve? name = some shared) :
    evaluate env name = ⟨.ok (.completed [.reference name shared .environment]), none, env⟩ := by
  apply word_evaluates word
  simp only [Token.resolve, trimmed, unread, bound]

theorem identifier_in_array (identifier : IsIdentifier name) (free : name ∉ keywords)
    (position : Nat) : env.valueOf .array name position = .ok (.array [env.sourceOf name]) := by
  have splits := Literal.splits_whole (Literal.word_splits identifier)
  rw [Literal.word_token_identifier free] at splits
  obtain ⟨unstuck, tokens⟩ := Literal.lexes_raw splits
  have reads : Literal.read .array name = .ok (.array [.name name]) := by
    simp only [Literal.read, unstuck, tokens]
    rfl
  simp only [Environment.value_of_read, reads, Literal.value, Literal.itemValues]

end Lookup

/-- In every session, if a line assigns to a name that is not empty, the right side has supplied the
entry, and the name as the next line completes with a reference to this same entry. If it can be a
name in a literal, it stands there for the source of the entry, or for undefined. -/
theorem assigned_name_is_found_again (s : Session) (source name : String)
    (assigned : (s.run source).1.outcome = .ok (.assigned name)) (nonempty : name ≠ "") :
    let after := (s.run source).2
    ∃ target value shared, (s.reduced source).tokens = [target, .operator .assign, value] ∧
      value.supplied? s.environment = some shared ∧
      (after.run name).1.outcome = .ok (.completed [.reference name shared .environment]) ∧
      (IsIdentifier name → name ∉ keywords → ∀ position,
        after.environment.valueOf .array name position =
          .ok (.array [shared.entry.source.getD .undefined])) := by
  intro after
  obtain ⟨text, origin, sign, rest, scanned, rfl, unread⟩ := Session.assigned_lexemes assigned
  obtain ⟨target, value, shared, tokens, _, supplied, binds⟩ := Session.assigned_binds assigned
  have bound : after.environment.resolve? (Text.trim text) = some shared := by
    rw [binds, if_pos rfl]
  have word : IsWord (Text.trim text) := trimmed_word (scan_orderly scanned).2.1 nonempty
  refine ⟨target, value, shared, tokens, supplied, ?_, ?_⟩
  · rw [Session.run_evaluates, bound_word_evaluates word (Text.trim_trimmed text) unread bound]
  · intro identifier free position
    rw [identifier_in_array identifier free, Environment.sourceOf, bound]

theorem assigned_name_is_found_between_blanks :
    let after := (Session.initial.run "\u00a0$x1\u2003 = 7").2
    let shared : Shared := ⟨⟨1, []⟩, Entry.ofValue (.integer 7)⟩
    (Session.initial.run "\u00a0$x1\u2003 = 7").1.outcome = .ok (.assigned "$x1") ∧
      IsIdentifier "$x1" ∧ "$x1" ∉ keywords ∧
      (after.run "$x1").1.outcome = .ok (.completed [.reference "$x1" shared .environment]) ∧
      after.environment.valueOf .array "$x1" 3 = .ok (.array [.integer 7]) ∧
      (Session.initial.run "12.\u3000=console").1.outcome = .ok (.assigned "12.") ∧
      ((Session.initial.run "12.\u3000=console").2.run "12.").1.outcome =
        .ok (.completed [.reference "12." ⟨⟨0, []⟩, Console.entry⟩ .environment]) := by
  intro after shared
  have identifier : IsIdentifier "$x1" :=
    ⟨'$', ['x', '1'], by decide, by decide, List.all_eq_true.mp (by decide)⟩
  have free : "$x1" ∉ keywords := by decide
  have reduced : (Session.initial.reduced "\u00a0$x1\u2003 = 7").tokens =
      [.name "\u00a0$x1\u2003", .operator .assign, .literal (.integer 7)] := rfl
  have reducedPoint : (Session.initial.reduced "12.\u3000=console").tokens =
      [.name "12.\u3000", .operator .assign,
        .reference "console" ⟨⟨0, []⟩, Console.entry⟩ .environment] := rfl
  obtain ⟨_, _, _, tokens, supplied, found, array⟩ :=
    assigned_name_is_found_again Session.initial "\u00a0$x1\u2003 = 7" "$x1" rfl (by decide)
  obtain ⟨_, _, _, tokensPoint, suppliedPoint, foundPoint, _⟩ :=
    assigned_name_is_found_again Session.initial "12.\u3000=console" "12." rfl (by decide)
  rw [reduced] at tokens
  rw [reducedPoint] at tokensPoint
  cases tokens
  cases tokensPoint
  cases supplied
  cases suppliedPoint
  exact ⟨rfl, identifier, free, found, array identifier free 3, rfl, foundPoint⟩

end LineShell
