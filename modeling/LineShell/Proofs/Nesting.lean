import LineShell.Proofs.Capture
import LineShell.Proofs.LiteralReading

/-!
The scanner and the literals agree on nesting. In a text that the scanner kept, brackets match and
quoted pieces end where the lexer of literals ends them, or the lexer finds no token there at all.
So as many brackets are opened as closed among its tokens, and since every bracket that the reader
takes opens or closes one list, no nested list is open when the tokens end.
-/

namespace LineShell

/-- The rest of a balanced text, in which this many open brackets are still to be closed. -/
inductive Unwinds : Nat → List Char → Prop where
  | nil : Unwinds 0 []
  | plain {depth : Nat} {c : Char} {rest : List Char} (plain : IsPlain c)
      (after : Unwinds depth rest) : Unwinds depth (c :: rest)
  | opener {depth : Nat} {rest : List Char} (b : Bracket) (after : Unwinds (depth + 1) rest) :
      Unwinds depth (b.opener :: rest)
  | closer {depth : Nat} {rest : List Char} (b : Bracket) (after : Unwinds depth rest) :
      Unwinds (depth + 1) (b.closer :: rest)
  | quoted {depth : Nat} {inner rest : List Char} (q : Quote) (inside : Quoted q.mark inner)
      (after : Unwinds depth rest) : Unwinds depth (q.mark :: inner ++ q.mark :: rest)

theorem balanced_unwinds {text rest : List Char} {depth : Nat} (balanced : Balanced text)
    (after : Unwinds depth rest) : Unwinds depth (text ++ rest) := by
  induction balanced generalizing depth rest with
  | nil => exact after
  | plain plain _ induction => exact .plain plain (induction after)
  | bracket b _ _ inner outer =>
      rw [List.append_assoc, List.cons_append]
      exact .opener b (inner (.closer b (outer after)))
  | quoted q inside _ induction =>
      rw [List.append_assoc, List.cons_append]
      exact .quoted q inside (induction after)

theorem opener_is_not_plain (e : Enclosure) : ¬IsPlain e.opener := by
  cases e with
  | bracket b => cases b <;> simp [IsPlain, delimiterCharacters, Enclosure.opener, Bracket.opener]
  | quote q => cases q <;> simp [IsPlain, delimiterCharacters, Enclosure.opener, Quote.mark]

theorem closer_is_not_plain (b : Bracket) : ¬IsPlain b.closer := by
  cases b <;> simp [IsPlain, delimiterCharacters, Bracket.closer]

section Inversion

variable {depth : Nat} {rest : List Char}

theorem unwinds_plain {c : Char} (plain : IsPlain c) (unwinds : Unwinds depth (c :: rest)) :
    Unwinds depth rest := by
  cases unwinds with
  | plain _ after => exact after
  | opener b after => exact absurd plain (opener_is_not_plain (.bracket b))
  | closer b after => exact absurd plain (closer_is_not_plain b)
  | quoted q inside after => exact absurd plain (opener_is_not_plain (.quote q))

theorem unwinds_opener {b : Bracket} (unwinds : Unwinds depth (b.opener :: rest)) :
    Unwinds (depth + 1) rest := by
  generalize same : b.opener = c at unwinds
  cases unwinds with
  | plain plain after =>
      subst same
      exact absurd plain (opener_is_not_plain (.bracket b))
  | opener _ after => exact after
  | closer other after => exact absurd same (opener_is_no_closer b other)
  | quoted q inside after => exact absurd same.symm (mark_is_no_opener q b)

theorem unwinds_closer {b : Bracket} (unwinds : Unwinds depth (b.closer :: rest)) :
    ∃ outer, depth = outer + 1 ∧ Unwinds outer rest := by
  generalize same : b.closer = c at unwinds
  cases unwinds with
  | plain plain after =>
      subst same
      exact absurd plain (closer_is_not_plain b)
  | opener other after => exact absurd same.symm (opener_is_no_closer other b)
  | @closer outer _ _ after => exact ⟨outer, rfl, after⟩
  | quoted q inside after => exact absurd same.symm (mark_is_no_closer q b)

theorem unwinds_quote {q : Quote} (unwinds : Unwinds depth (q.mark :: rest)) :
    ∃ inner after, rest = inner ++ q.mark :: after ∧ Quoted q.mark inner ∧
      Unwinds depth after := by
  generalize same : q.mark = c at unwinds
  cases unwinds with
  | plain plain after =>
      subst same
      exact absurd plain (opener_is_not_plain (.quote q))
  | opener b after => exact absurd same (mark_is_no_opener q b)
  | closer b after => exact absurd same (mark_is_no_closer q b)
  | @quoted _ inner after other inside unwinds =>
      obtain rfl := quote_mark_injective same
      exact ⟨inner, after, rfl, inside, unwinds⟩

end Inversion

theorem unwinds_plain_front {depth : Nat} {front rest : List Char}
    (plain : ∀ c ∈ front, IsPlain c) (unwinds : Unwinds depth (front ++ rest)) :
    Unwinds depth rest := by
  induction front with
  | nil => exact unwinds
  | cons c others induction =>
      have first := plain c List.mem_cons_self
      exact induction (fun other member => plain other (List.mem_cons_of_mem _ member))
        (unwinds_plain first unwinds)

theorem plain_of_class (inClass : Char → Bool)
    (disjoint : delimiterCharacters.all (fun c => !inClass c) = true) {c : Char}
    (member : inClass c = true) : IsPlain c := by
  intro delimiter
  have outsideClass := List.all_eq_true.mp disjoint c delimiter
  rw [member] at outsideClass
  cases outsideClass

theorem digits_plain (cs : List Char) : ∀ c ∈ cs.takeWhile isDigit, IsPlain c := by
  intro c member
  exact plain_of_class isDigit (by decide) (List.all_eq_true.mp List.all_takeWhile c member)

namespace Literal

theorem name_parts_plain (cs : List Char) : ∀ c ∈ cs.takeWhile isNamePart, IsPlain c := by
  intro c member
  exact plain_of_class isNamePart (by decide) (List.all_eq_true.mp List.all_takeWhile c member)

theorem skipped_plain {c : Char} (skipped : isSkipped c = true) : IsPlain c :=
  plain_of_class isSkipped (by decide) skipped

theorem fraction_plain (cs : List Char) : ∀ c ∈ fractionText (splitFraction cs).1, IsPlain c := by
  intro c member
  unfold splitFraction at member
  split at member
  · split at member
    · cases member
    · rcases List.mem_cons.mp member with rfl | digit
      · simp [IsPlain, delimiterCharacters]
      · exact digits_plain _ c digit
  · cases member

theorem sign_plain (cs : List Char) : ∀ c ∈ (splitSign cs).1, IsPlain c := by
  intro c member
  unfold splitSign at member
  split at member
  · rw [List.mem_singleton.mp member]
    simp [IsPlain, delimiterCharacters]
  · rw [List.mem_singleton.mp member]
    simp [IsPlain, delimiterCharacters]
  · cases member

theorem exponent_plain (cs : List Char) : ∀ c ∈ exponentText (splitExponent cs).1, IsPlain c := by
  intro c member
  unfold splitExponent at member
  split at member
  · cases member
  · dsimp only at member
    split at member
    · rename_i mark rest condition
      rcases List.mem_cons.mp member with rfl | inTail
      · rcases condition.1 with rfl | rfl
        · simp [IsPlain, delimiterCharacters]
        · simp [IsPlain, delimiterCharacters]
      · rcases List.mem_append.mp inTail with inSign | inDigits
        · exact sign_plain _ c inSign
        · exact digits_plain _ c inDigits
    · cases member

theorem number_plain {sign cs : List Char} {m : Munch} (signs : ∀ c ∈ sign, IsPlain c)
    (found : munchNumber sign cs = some m) : ∀ c ∈ m.text, IsPlain c := by
  unfold munchNumber at found
  dsimp only at found
  split at found
  · cases found
  · cases found
    intro c member
    rcases List.mem_append.mp member with front | inExponent
    · rcases List.mem_append.mp front with front | inFraction
      · rcases List.mem_append.mp front with inSign | inWhole
        · exact signs c inSign
        · exact digits_plain _ c inWhole
      · exact fraction_plain _ c inFraction
    · exact exponent_plain _ c inExponent

/-- A quoted piece ends for the lexer where it ends for the scanner, if the lexer takes it. -/
theorem split_quoted_agrees {q : Quote} {inner rest body after : List Char}
    (quoted : Quoted q.mark inner)
    (split : splitQuoted q.mark (inner ++ q.mark :: rest) = some (body, after)) : after = rest := by
  induction quoted generalizing body with
  | nil =>
      have ends : splitQuoted q.mark (q.mark :: rest) = some ([], rest) := by
        cases q <;> rfl
      rw [List.nil_append, ends] at split
      cases split
      rfl
  | @plain c others unmarked unescaped _ induction =>
      rw [List.cons_append, splitQuoted.eq_3 _ _ _ (by intro _ _ same; exact absurd same unescaped),
        if_neg unmarked, if_neg unescaped] at split
      obtain ⟨⟨found, left⟩, inside, same⟩ := Option.map_eq_some_iff.mp split
      cases same
      exact induction inside
  | @escape c others _ induction =>
      rw [List.cons_append, List.cons_append, splitQuoted] at split
      split at split
      · cases split
      · obtain ⟨⟨found, left⟩, inside, same⟩ := Option.map_eq_some_iff.mp split
        cases same
        exact induction inside

def Token.isCloser : Token → Bool
  | .rightParen | .rightBracket | .rightBrace => true
  | _ => false

def openings (tokens : List Token) : Nat := tokens.countP fun token => token.opens?.isSome

def closings (tokens : List Token) : Nat := tokens.countP Token.isCloser

theorem openings_cons (token : Token) (tokens : List Token) :
    openings (token :: tokens) = token.opens?.isSome.toNat + openings tokens := by
  unfold openings
  rw [List.countP_cons, Nat.add_comm]
  cases token.opens?.isSome <;> rfl

theorem closings_cons (token : Token) (tokens : List Token) :
    closings (token :: tokens) = token.isCloser.toNat + closings tokens := by
  unfold closings
  rw [List.countP_cons, Nat.add_comm]
  cases token.isCloser <;> rfl

def Token.IsFlat (token : Token) : Prop := token.opens? = none ∧ token.isCloser = false

theorem word_token_flat (text : String) : (wordToken text).IsFlat := by
  unfold wordToken
  split
  · exact ⟨rfl, rfl⟩
  · split
    · exact ⟨rfl, rfl⟩
    · split
      · exact ⟨rfl, rfl⟩
      · split
        · exact ⟨rfl, rfl⟩
        · exact ⟨rfl, rfl⟩

theorem number_token_flat {sign cs : List Char} {m : Munch} {token : Token}
    (found : munchNumber sign cs = some m) (denotes : m.token = some token) : token.IsFlat := by
  unfold munchNumber at found
  dsimp only at found
  split at found
  · cases found
  · cases found
    unfold numberToken at denotes
    split at denotes
    · obtain ⟨value, _, rfl⟩ := Option.map_eq_some_iff.mp denotes
      exact ⟨rfl, rfl⟩
    · cases denotes
      exact ⟨rfl, rfl⟩

/-- What the longest token at a place can be: a quoted piece, a bracket, or flat plain text. -/
theorem munch_cases {c : Char} {tail : List Char} {m : Munch} {token : Token}
    (found : munch c tail = some m) (denotes : m.token = some token) :
    (∃ q : Quote, c = q.mark ∧ token.IsFlat ∧ ∃ body, splitQuoted c tail = some (body, m.rest)) ∨
    (∃ b : Bracket, c = b.opener ∧ token.opens?.isSome = true ∧ token.isCloser = false ∧
      m.rest = tail) ∨
    (∃ b : Bracket, c = b.closer ∧ token.opens? = none ∧ token.isCloser = true ∧ m.rest = tail) ∨
    (token.IsFlat ∧ ∀ x ∈ m.text, IsPlain x) := by
  unfold munch at found
  split at found
  · rename_i mark
    obtain ⟨⟨body, rest⟩, split, rfl⟩ := Option.map_eq_some_iff.mp found
    cases denotes
    rcases mark with rfl | rfl
    · exact .inl ⟨.double, rfl, ⟨rfl, rfl⟩, body, split⟩
    · exact .inl ⟨.single, rfl, ⟨rfl, rfl⟩, body, split⟩
  · split at found
    · rename_i start
      cases found
      cases denotes
      refine .inr (.inr (.inr ⟨word_token_flat _, ?_⟩))
      intro x member
      rcases List.mem_cons.mp member with rfl | part
      · exact plain_of_class isNameStart (by decide) start
      · exact name_parts_plain _ x part
    · split at found
      · have minus : ∀ x ∈ ['-'], IsPlain x := by simp [IsPlain, delimiterCharacters]
        exact .inr (.inr (.inr ⟨number_token_flat found denotes, number_plain minus found⟩))
      · split at found
        · have nothing : ∀ x ∈ ([] : List Char), IsPlain x := by simp
          exact .inr (.inr (.inr ⟨number_token_flat found denotes, number_plain nothing found⟩))
        · obtain ⟨mark, isMark, rfl⟩ := Option.map_eq_some_iff.mp found
          cases denotes
          unfold punctuation? at isMark
          split at isMark <;> cases isMark
          · exact .inr (.inl ⟨.round, rfl, rfl, rfl, rfl⟩)
          · exact .inr (.inr (.inl ⟨.round, rfl, rfl, rfl, rfl⟩))
          · exact .inr (.inl ⟨.square, rfl, rfl, rfl, rfl⟩)
          · exact .inr (.inr (.inl ⟨.square, rfl, rfl, rfl, rfl⟩))
          · exact .inr (.inl ⟨.curly, rfl, rfl, rfl, rfl⟩)
          · exact .inr (.inr (.inl ⟨.curly, rfl, rfl, rfl, rfl⟩))
          · exact .inr (.inr (.inr ⟨⟨rfl, rfl⟩, by simp [IsPlain, delimiterCharacters]⟩))
          · exact .inr (.inr (.inr ⟨⟨rfl, rfl⟩, by simp [IsPlain, delimiterCharacters]⟩))

/-- One token: the brackets still to be closed change as the token opens or closes one. -/
theorem munch_unwinds {c : Char} {tail : List Char} {m : Munch} {token : Token} {depth : Nat}
    (unwinds : Unwinds depth (c :: tail)) (found : munch c tail = some m)
    (denotes : m.token = some token) : ∃ after, Unwinds after m.rest ∧
      token.opens?.isSome.toNat + depth = token.isCloser.toNat + after := by
  rcases munch_cases found denotes with quotedPiece | opener | closer | plainText
  · obtain ⟨q, rfl, flat, body, split⟩ := quotedPiece
    obtain ⟨inner, after, rfl, inside, later⟩ := unwinds_quote unwinds
    rw [split_quoted_agrees inside split, flat.1, flat.2]
    exact ⟨depth, later, rfl⟩
  · obtain ⟨b, rfl, opens, closes, same⟩ := opener
    rw [same, opens, closes]
    refine ⟨depth + 1, unwinds_opener unwinds, ?_⟩
    simp only [Bool.toNat_true, Bool.toNat_false]
    omega
  · obtain ⟨b, rfl, opens, closes, same⟩ := closer
    obtain ⟨outer, rfl, later⟩ := unwinds_closer unwinds
    rw [same, opens, closes]
    refine ⟨outer, later, ?_⟩
    simp only [Option.isSome_none, Bool.toNat_true, Bool.toNat_false]
    omega
  · obtain ⟨flat, plain⟩ := plainText
    rw [← munch_append found] at unwinds
    rw [flat.1, flat.2]
    exact ⟨depth, unwinds_plain_front plain unwinds, rfl⟩

/-- All tokens: the closing brackets among them close all that were open or opened. -/
theorem lex_unwinds {offset depth : Nat} {cs : List Char} (unwinds : Unwinds depth cs)
    (clean : (lexFrom offset cs).fault = none) :
    openings ((lexFrom offset cs).tokens.map Spanned.token) + depth =
      closings ((lexFrom offset cs).tokens.map Spanned.token) := by
  fun_induction lexFrom offset cs generalizing depth with
  | case1 =>
      cases unwinds
      rfl
  | case2 offset c tail skipped induction =>
      exact induction (unwinds_plain (skipped_plain skipped) unwinds) clean
  | case3 => cases clean
  | case4 => cases clean
  | case5 offset c tail _ m found token denotes _ stop lexed =>
      rename_i induction
      obtain ⟨after, later, counted⟩ := munch_unwinds unwinds found denotes
      have remaining : openings (lexed.tokens.map Spanned.token) + after =
          closings (lexed.tokens.map Spanned.token) := induction later clean
      rw [List.map_cons, openings_cons, closings_cons]
      dsimp only
      omega

namespace Reader

/-- What tokens may do to the lists that are open: each bracket opens or closes one of them, and a
token that cannot be taken is never called a missing end. -/
def Accounts (outer : List Slot) (tokens : List Token) : Except Fault Reader → Prop
  | .ok last => last.outer.length + closings tokens = outer.length + openings tokens
  | .error fault => fault ≠ .unexpectedEnd

theorem accounts_token_iff {outer : List Slot} {token : Token} {next : Reader} :
    Accounts outer [token] (.ok next) ↔
      next.outer.length + token.isCloser.toNat = outer.length + token.opens?.isSome.toNat := by
  rw [Accounts, openings_cons, closings_cons]
  exact Iff.rfl

theorem atom_flat {token : Token} {item : Literal} (atomic : token.atom? = some item) :
    token.IsFlat := by
  cases token <;> cases atomic <;> exact ⟨rfl, rfl⟩

theorem key_flat {token : Token} {key : String} (named : token.key? = some key) :
    token.IsFlat := by
  cases token <;> cases named <;> exact ⟨rfl, rfl⟩

theorem opener_closes_nothing {token : Token} {list : OpenList}
    (opens : token.opens? = some list) : token.isCloser = false := by
  cases token <;> cases opens <;> rfl

theorem flat_accounts {outer : List Slot} {token : Token} (flat : token.IsFlat)
    (expected : Expectation) : Accounts outer [token] (.ok ⟨expected, outer⟩) := by
  rw [accounts_token_iff, flat.1, flat.2]
  rfl

theorem begin_accounts (slot : Slot) (outer : List Slot) (token : Token) :
    Accounts outer [token] (begin slot outer token) := by
  rw [begin_eq]
  split
  · rename_i atomic
    exact flat_accounts (atom_flat atomic) _
  · rename_i opens
    rw [accounts_token_iff, opens, opener_closes_nothing opens]
    rfl
  · intro same
    cases same

theorem element_accounts (list : OpenList) (outer : List Slot) (token : Token) :
    Accounts outer [token] (beginElement list outer token) := by
  cases list with
  | tuple items => exact begin_accounts (.tuple items) outer token
  | array items => exact begin_accounts (.array items) outer token
  | object members =>
      rw [begin_member]
      split
      · rename_i named
        exact flat_accounts (key_flat named) _
      · intro same
        cases same

theorem close_accounts {list : OpenList} {outer : List Slot} {token : Token} {next : Reader}
    (closed : close? list outer token = some next) : Accounts outer [token] (.ok next) := by
  cases outer with
  | nil => cases closed
  | cons slot outer =>
      obtain rfl := close_bracket closed
      rw [close?, if_pos rfl] at closed
      cases closed
      cases list <;> rfl

theorem step_accounts (r : Reader) (token : Token) : Accounts r.outer [token] (step r token) := by
  unfold step
  split
  · split
    · rename_i closed
      exact close_accounts closed
    · exact element_accounts _ r.outer token
  · split
    · rename_i isColon
      rw [isColon]
      exact flat_accounts ⟨rfl, rfl⟩ _
    · intro same
      cases same
  · exact begin_accounts _ r.outer token
  · split
    · rename_i closed
      exact close_accounts closed
    · split
      · rename_i isComma
        rw [isComma]
        exact flat_accounts ⟨rfl, rfl⟩ _
      · intro same
        cases same

theorem steps_accounts (r : Reader) (tokens : List Token) :
    Accounts r.outer tokens (steps r tokens) := by
  induction tokens generalizing r with
  | nil => rfl
  | cons token rest induction =>
      have first := step_accounts r token
      rw [steps_cons]
      cases stepped : step r token with
      | error fault =>
          rw [stepped] at first
          exact first
      | ok next =>
          rw [stepped] at first
          have later := induction next
          change Accounts r.outer (token :: rest) (steps next rest)
          cases finished : steps next rest with
          | error fault =>
              rw [finished] at later
              exact later
          | ok last =>
              rw [finished, Accounts] at later
              rw [accounts_token_iff] at first
              rw [Accounts, openings_cons, closings_cons]
              omega

/-- Only a nested list can miss its end. -/
theorem finish_at_end {r : Reader} (failed : finish r = .error .unexpectedEnd) : r.outer ≠ [] := by
  obtain ⟨expected, outer⟩ := r
  intro outermost
  cases outermost
  cases expected with
  | element list => cases list <;> cases failed
  | colon members key => cases failed
  | value members key => cases failed
  | separator list => cases failed

theorem read_at_end {list : OpenList} {tokens : List Token} {stuck : Option Nat}
    (failed : read list tokens stuck = .error .unexpectedEnd) :
    stuck = none ∧ ∃ last, steps ⟨.element list, []⟩ tokens = .ok last ∧ last.outer ≠ [] := by
  unfold read result at failed
  split at failed
  · rename_i fault stepped
    cases failed
    have accounts := steps_accounts ⟨.element list, []⟩ tokens
    rw [stepped] at accounts
    exact absurd rfl accounts
  · cases failed
  · rename_i last stepped
    exact ⟨rfl, last, stepped, finish_at_end failed⟩

end Reader

/-- When the tokens of a balanced text end, the reader is in no nested list. -/
theorem balanced_reads_outermost {raw : String} (balanced : Balanced raw.toList)
    (clean : (lex raw).fault = none) {list : OpenList} {last : Reader}
    (stepped : Reader.steps ⟨.element list, []⟩ ((lex raw).tokens.map Spanned.token) = .ok last) :
    last.outer = [] := by
  have unwinds : Unwinds 0 raw.toList := by
    have whole := balanced_unwinds balanced Unwinds.nil
    rw [List.append_nil] at whole
    exact whole
  have even := lex_unwinds unwinds clean
  have depth := Reader.steps_accounts ⟨.element list, []⟩ ((lex raw).tokens.map Spanned.token)
  rw [stepped] at depth
  simp only [Reader.Accounts, lex, List.length_nil] at depth
  apply List.eq_nil_of_length_eq_zero
  omega

theorem front_of_message {front rest whole : String} (same : front ++ rest = whole) :
    front.toList <+: whole.toList := by
  rw [← same, String.toList_append]
  exact List.prefix_append _ _

theorem token_text_head (token : Token) : token.text.toList.head? ≠ some 'e' := by
  cases token with
  | integer value => simp [Token.text, String.toList_append]
  | real value => simp [Token.text, String.toList_append]
  | string value => simp [Token.text, String.toList_append]
  | identifier text => simp [Token.text, String.toList_append]
  | bool value => cases value <;> decide
  | _ => decide

/-- No other fault has the words of this one, whatever token or key it names. -/
theorem fault_of_end_message {fault : Fault}
    (same : fault.message = "unexpected end of literal") : fault = .unexpectedEnd := by
  unfold Fault.message at same
  split at same
  · exact absurd (front_of_message same) (by decide)
  · exact absurd same (by decide)
  · rename_i token
    have split : "unexpected end of literal" = "unexpected " ++ "end of literal" := by decide
    have text : token.text = "end of literal" := (String.append_right_inj _).mp (same.trans split)
    have head : token.text.toList.head? = some 'e' := by
      rw [text]
      decide
    exact absurd head (token_text_head token)
  · rfl
  · exact absurd (front_of_message same) (by decide)
  · exact absurd (front_of_message (String.append_assoc.symm.trans same)) (by decide)

end Literal

open Literal

theorem composite_body {e : Enclosure} {list : OpenList} {text : List Char}
    (composite : outermost? e.shape = some list) (body : e.Body text) : Balanced text := by
  cases e with
  | bracket b => exact body
  | quote q => cases composite

theorem value_of_fault {env : Environment} {shape : Shape} {raw : String} {position : Nat}
    {fault : Fault} {reported : Nat}
    (failed : env.valueOf shape raw position = .error ⟨.malformedLiteral fault, reported⟩) :
    read shape raw = .error fault := by
  rw [Environment.value_of_read] at failed
  split at failed
  · cases failed
  · rename_i found
    cases failed
    exact found

/-- A composite text that the scanner captured never ends too early for the reader: no fault says
so, and a nested list that was entered meets another token or a place where no token begins. -/
theorem captured_literal_never_ends_early (source : String) (pull : Scanner.Pull)
    (member : pull ∈ Scanner.pullsOf source) (shape : Shape) (list : OpenList)
    (composite : outermost? shape = some list) (closing : Char) (text : String) (origin : Nat)
    (given : pull.result = .ok ⟨.capture shape closing text, origin⟩) :
    (∀ (env : Environment) position fault reported,
      env.valueOf shape text position = .error ⟨.malformedLiteral fault, reported⟩ →
        fault.message ≠ "unexpected end of literal") ∧
    (∀ taken left reader, (lex text).tokens.map Spanned.token = taken ++ left →
      Reader.steps ⟨.element list, []⟩ taken = .ok reader → reader.outer ≠ [] →
        left ≠ [] ∨ (lex text).fault ≠ none) := by
  obtain ⟨e, rfl, _, body⟩ := @Scanner.captured_body .start rfl _ _ _ member _ _ _ _ given
  have balanced := composite_body composite body
  constructor
  · intro env position fault reported failed same
    obtain rfl := fault_of_end_message same
    have faulty := value_of_fault failed
    rw [read_composite composite] at faulty
    obtain ⟨clean, last, stepped, nested⟩ := Reader.read_at_end faulty
    exact nested (balanced_reads_outermost balanced clean stepped)
  · intro taken left reader whole stepped nested
    cases left with
    | cons token rest => exact .inl (List.cons_ne_nil token rest)
    | nil =>
        refine .inr ?_
        intro clean
        rw [List.append_nil] at whole
        rw [← whole] at stepped
        exact nested (balanced_reads_outermost balanced clean stepped)

theorem captured_nested_list_meets_no_end :
    let text := "1, [2, \"]\", %]"
    let pull : Scanner.Pull := ⟨.ok ⟨.capture .array ']' text, 4⟩, 0⟩
    pull ∈ Scanner.pullsOf "x = [1, [2, \"]\", %]]" ∧ outermost? .array = some (.array []) ∧
    (∀ (env : Environment) position fault reported,
      env.valueOf .array text position = .error ⟨.malformedLiteral fault, reported⟩ →
        fault.message ≠ "unexpected end of literal") := by
  intro text pull
  have pulled : Scanner.pullsOf "x = [1, [2, \"]\", %]]" =
    [⟨.ok ⟨.name "x", 0⟩, 0⟩, ⟨.ok ⟨.operator .assign, 2⟩, 0⟩, pull] := rfl
  have member : pull ∈ Scanner.pullsOf "x = [1, [2, \"]\", %]]" := by
    rw [pulled]
    exact List.mem_cons_of_mem _ (List.mem_cons_of_mem _ List.mem_cons_self)
  exact ⟨member, rfl, (captured_literal_never_ends_early _ _ member _ _ rfl _ _ _ rfl).1⟩

end LineShell
