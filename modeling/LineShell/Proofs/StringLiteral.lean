import LineShell.Proofs.Losslessness
import LineShell.Proofs.RoundTrip

/-!
Strings inside literals. For the scanner a backslash in quotes goes with any character, for the
lexer of literals with any but a line feed. Main statement: a quoted text that is a line of its own
is one string, and alone in a tuple, an array or an object it is that same string, unless a
backslash of it goes with a line feed; then the literal is refused at the string.
-/

namespace LineShell

open Literal

/-- Whether a backslash goes with a line feed; it always goes with the character after it. -/
def escapesFeed : List Char → Bool
  | [] => false
  | '\\' :: c :: rest => c == '\n' || escapesFeed rest
  | _ :: rest => escapesFeed rest

section Feeds

variable {mark : Char} {raw : List Char}

theorem escapes_feed_plain {c : Char} (unescaped : c ≠ '\\') (rest : List Char) :
    escapesFeed (c :: rest) = escapesFeed rest := by
  rw [escapesFeed]
  intro _ _ same
  exact absurd same unescaped

theorem escapes_feed_escape (c : Char) (rest : List Char) :
    escapesFeed ('\\' :: c :: rest) = (c == '\n' || escapesFeed rest) := by
  rw [escapesFeed]

/-- Without such a backslash, the text writes what its escapes stand for. -/
theorem escapes_of_quoted (quoted : Quoted mark raw) (without : escapesFeed raw = false) :
    Escapes mark raw (Text.unescapeChars raw) := by
  induction quoted with
  | nil => exact .nil
  | plain unmarked unescaped _ induction =>
      rw [escapes_feed_plain unescaped] at without
      rw [unescape_plain unescaped]
      exact .plain unmarked unescaped (induction without)
  | @escape c rest _ induction =>
      rw [escapes_feed_escape, Bool.or_eq_false_iff] at without
      rw [Text.unescapeChars]
      exact .escape (beq_eq_false_iff_ne.mp without.1) (induction without.2)

/-- With such a backslash, the lexer finds no end of the text, whatever follows. -/
theorem split_quoted_feed (quoted : Quoted mark raw) (feed : escapesFeed raw = true)
    (rest : List Char) : splitQuoted mark (raw ++ rest) = none := by
  induction quoted with
  | nil => cases feed
  | plain unmarked unescaped _ induction =>
      rw [escapes_feed_plain unescaped] at feed
      rw [List.cons_append, split_quoted_plain unmarked unescaped, induction feed, Option.map_none]
  | @escape c others _ induction =>
      rw [escapes_feed_escape] at feed
      rw [List.cons_append, List.cons_append, splitQuoted]
      by_cases lineFeed : c = '\n'
      · rw [if_pos lineFeed]
      · rw [beq_false_of_ne lineFeed, Bool.false_or] at feed
        rw [if_neg lineFeed, induction feed, Option.map_none]

theorem lex_feed {q : Quote} (quoted : Quoted q.mark raw) (feed : escapesFeed raw = true)
    (offset : Nat) : lexFrom offset (q.mark :: raw ++ [q.mark]) = ⟨[], some offset⟩ := by
  have marked : q.mark = '"' ∨ q.mark = '\'' := by cases q <;> decide
  rw [List.cons_append]
  apply lex_stuck
  · cases q <;> decide
  · rw [munch, if_pos marked, munchQuoted, split_quoted_feed quoted feed, Option.map_none]

end Feeds

def Quote.around (q : Quote) (raw : String) : String :=
  String.ofList (q.mark :: raw.toList ++ [q.mark])

namespace Bracket

/-- What stands in the brackets before the only element; the member of an object has the key `k`. -/
def lead : Bracket → String
  | round => ""
  | square => ""
  | curly => "k: "

def around (b : Bracket) (element : String) : String :=
  String.ofList (b.opener :: (b.lead.toList ++ element.toList) ++ [b.closer])

def holding (element : Value) : Bracket → Value
  | round => .tuple [element]
  | square => .array [element]
  | curly => .object [("k", element)]

end Bracket

section Elements

variable {text : List Char} {value : Value}

theorem key_identifier : IsIdentifier "k" :=
  ⟨'k', [], by decide, by decide, List.forall_mem_nil _⟩

theorem element_balanced (b : Bracket) (balanced : Balanced text) :
    Balanced (b.lead.toList ++ text) := by
  cases b with
  | round | square => exact balanced
  | curly => exact member_balanced key_identifier balanced

theorem element_composes (b : Bracket) (spells : Spells text value) :
    Composes b (b.lead.toList ++ text) (b.holding value) := by
  cases b with
  | round => exact .tuple (last_item_spells spells)
  | square => exact .array (last_item_spells spells)
  | curly => exact .object (last_member_spells key_identifier (by decide) spells)

theorem lex_after_key (text : List Char) :
    lexFrom 0 ("k: ".toList ++ text) =
      ⟨⟨.identifier "k", 0, 1⟩ :: ⟨.colon, 1, 2⟩ :: (lexFrom 3 text).tokens,
        (lexFrom 3 text).fault⟩ := by
  have word : munch 'k' (':' :: ' ' :: text) =
      some ⟨some (.identifier "k"), ['k'], ':' :: ' ' :: text⟩ := rfl
  have colon : munch ':' (' ' :: text) = some ⟨some .colon, [':'], ' ' :: text⟩ := rfl
  have first : lexFrom 0 ("k: ".toList ++ text) = _ := lex_token (by decide) word rfl 0
  have second : lexFrom 1 (':' :: ' ' :: text) = _ := lex_token (by decide) colon rfl 1
  have third : lexFrom 2 (' ' :: text) = lexFrom 3 text := by
    rw [lexFrom, if_pos (by decide)]
    rfl
  rw [← third]
  exact first.trans (congrArg (fun l : Lexed => (⟨_ :: l.tokens, l.fault⟩ : Lexed)) second)

theorem element_refused (b : Bracket)
    (stuck : ∀ offset, lexFrom offset text = ⟨[], some offset⟩) :
    read b.shape (String.ofList (b.lead.toList ++ text)) =
      .error (.unrecognized b.lead.utf8ByteSize) := by
  have lexed : lex (String.ofList (b.lead.toList ++ text)) =
      lexFrom 0 (b.lead.toList ++ text) := by
    rw [lex, String.toList_ofList]
  obtain ⟨list, composite⟩ : ∃ list, outermost? b.shape = some list := by
    cases b <;> exact ⟨_, rfl⟩
  rw [read_composite composite, lexed]
  cases b with
  | round | square =>
      cases composite
      rw [Bracket.lead, String.toList_empty, List.nil_append, stuck]
      rfl
  | curly =>
      cases composite
      rw [Bracket.lead, lex_after_key, stuck]
      rfl

end Elements

theorem quoted_of_scanned {q : Quote} {raw : String} {closing : Char} {origin : Nat}
    (scanned : scan (q.around raw) = .ok [⟨.capture .string closing raw, origin⟩]) :
    Quoted q.mark raw.toList := by
  have results := Scanner.collected_results scanned
  have opened : Scanner.pullsOf (q.around raw) = _ :=
    (congrArg (Scanner.pulls .start 0) String.toList_ofList).trans
      (@Scanner.opening_pulls .start rfl (.quote q) 0 (raw.toList ++ [q.mark]))
  have found : .ok ⟨.capture .string closing raw, origin⟩ ∈
      (Scanner.pullsOf (q.around raw)).map Scanner.Pull.result := by
    rw [results]
    exact List.mem_singleton_self _
  obtain ⟨pull, member, given⟩ := List.mem_map.mp found
  rw [opened] at member results
  obtain ⟨body, rest, split, inside, _⟩ := Scanner.opened_pull_cases (.quote q) 0 _ member given
  -- The first string of the line is the only one, so the text is that of the first.
  have first := Scanner.closed_pulls (.quote q) 0 (0 + q.mark.utf8Size) inside rest
  rw [← split] at first
  have only := results.symm.trans (congrArg (List.map Scanner.Pull.result) first)
  cases (List.cons.inj only).1
  rw [String.toList_ofList]
  exact inside

theorem string_evaluates {q : Quote} {raw : String} (quoted : Quoted q.mark raw.toList)
    (env : Environment) : evaluate env (q.around raw) =
      ⟨.ok (.completed [.literal (.string (Text.unescape raw))]), none, env⟩ := by
  have evaluated := @delimited_evaluates raw.toList (.quote q) quoted env
  rw [String.ofList_toList] at evaluated
  exact evaluated

theorem string_element_evaluates {q : Quote} {raw : String} (quoted : Quoted q.mark raw.toList)
    (b : Bracket) (env : Environment) :
    evaluate env (b.around (q.around raw)) =
      ⟨if escapesFeed raw.toList then
        .error ⟨.malformedLiteral (.unrecognized b.lead.utf8ByteSize), 0⟩
      else .ok (.completed [.literal (b.holding (.string (Text.unescape raw)))]), none, env⟩ := by
  have balanced := element_balanced b (.quoted q quoted .nil)
  have evaluated := @delimited_evaluates _ (.bracket b) balanced env
  have line : b.around (q.around raw) =
      String.ofList (b.opener :: (b.lead.toList ++ (q.mark :: raw.toList ++ [q.mark])) ++
        [b.closer]) := by
    rw [Bracket.around, Quote.around, String.toList_ofList]
  rw [line]
  refine evaluated.trans ?_
  rw [Enclosure.shape]
  cases feed : escapesFeed raw.toList with
  | true =>
      have refused := element_refused b (lex_feed quoted feed)
      rw [Environment.value_of_read, refused]
      rfl
  | false =>
      have escapes : Escapes q.mark raw.toList (Text.unescape raw).toList := by
        rw [Text.unescape, String.toList_ofList]
        exact escapes_of_quoted quoted feed
      rw [composes_value (element_composes b (quoted_spells escapes)) env 0]
      rfl

/-- A quoted text that is a line of its own is one string, and alone in a literal it is that same
string exactly if no backslash of it goes with a line feed. -/
theorem string_reads_alike_in_literals (s : Session) (q : Quote) (raw : String) (closing : Char)
    (origin : Nat)
    (scanned : scan (q.around raw) = .ok [⟨.capture .string closing raw, origin⟩]) :
    (s.run (q.around raw)).1 =
        ⟨.ok (.completed [.literal (.string (Text.unescape raw))]), none, s.environment⟩ ∧
      ∀ b : Bracket, (s.run (b.around (q.around raw))).1 =
        ⟨if escapesFeed raw.toList then
          .error ⟨.malformedLiteral (.unrecognized b.lead.utf8ByteSize), 0⟩
        else .ok (.completed [.literal (b.holding (.string (Text.unescape raw)))]), none,
          s.environment⟩ := by
  have quoted := quoted_of_scanned scanned
  refine ⟨string_evaluates quoted s.environment, ?_⟩
  intro b
  exact string_element_evaluates quoted b s.environment

theorem string_with_escaped_quote_reads_alike :
    scan "\"a\\\"\\n)\"" = .ok [⟨.capture .string '"' "a\\\"\\n)", 0⟩] ∧
      (Session.initial.run "\"a\\\"\\n)\"").1 =
        ⟨.ok (.completed [.literal (.string "a\"\n)")]), none, Session.initial.environment⟩ ∧
      (Session.initial.run "\x7bk: \"a\\\"\\n)\"\x7d").1 =
        ⟨.ok (.completed [.literal (.object [("k", .string "a\"\n)")])]), none,
          Session.initial.environment⟩ := by
  have scanned : scan "\"a\\\"\\n)\"" = .ok [⟨.capture .string '"' "a\\\"\\n)", 0⟩] := rfl
  have reads := string_reads_alike_in_literals Session.initial .double "a\\\"\\n)" '"' 0 scanned
  exact ⟨scanned, reads.1, reads.2 .curly⟩

/-- A string of one escaped line feed is refused in a tuple. -/
theorem escaped_line_feed_is_no_element :
    scan "\"\\\n\"" = .ok [⟨.capture .string '"' "\\\n", 0⟩] ∧
      (Session.initial.run "\"\\\n\"").1.outcome = .ok (.completed [.literal (.string "\n")]) ∧
      (Session.initial.run "(\"\\\n\")").1.outcome =
        .error ⟨.malformedLiteral (.unrecognized 0), 0⟩ := by
  have quoted : Quoted '"' ['\\', '\n'] := .escape .nil
  have refused := @string_element_evaluates .double "\\\n" quoted .round Session.initial.environment
  exact ⟨rfl, rfl, congrArg Evaluation.outcome refused⟩

end LineShell
