import LineShell.Proofs.Balance
import LineShell.Proofs.Losslessness

/-!
The scanner keeps exactly the balanced texts. The stack machine that reads a delimited text follows
the grammar of `Balance` step by step: a body leaves the stack as it was, a closer on a matching
delimiter pops it, and the two ways to fail are the two ways in which the grammar does not close.
-/

namespace LineShell

open Literal (byteSize)

def Opened.opening (o : Opened) : Opening := ⟨o.enclosure.opener, o.position⟩

namespace Delimiters

theorem close_outermost (opener : Char) (place : Nat) (c : Char) (position : Nat) :
    close ⟨[⟨opener, place⟩], some 0⟩ c opener position = .ok (.complete, ⟨[], none⟩) := by
  simp [close]

theorem close_nested (opener : Char) (place : Nat) (next : Opening) (below : List Opening)
    (c : Char) (position : Nat) :
    close ⟨⟨opener, place⟩ :: next :: below, some 0⟩ c opener position =
      .ok (.interior, ⟨next :: below, some 0⟩) := by
  simp [close]

theorem close_unmatched {top : Opening} {partner : Char} (unmatched : top.delimiter ≠ partner)
    (below : List Opening) (entry : Option Nat) (c : Char) (position : Nat) :
    close ⟨top :: below, entry⟩ c partner position = .error ⟨.unexpectedToken c, position⟩ := by
  simp [close, unmatched]

end Delimiters

namespace Scanner

/-- In the middle of a delimited text with these delimiters open, and not after a backslash. -/
def within (origin : Nat) (read : List Char) (stack : List Opening) : Scanner :=
  capture origin (String.ofList read) false ⟨stack, some 0⟩

section Pulls

variable {s next : Scanner} {position : Nat} {c : Char}

theorem pulls_of_silent (stepped : s.step position c = .ok (none, next)) (rest : List Char) :
    s.pulls position (c :: rest) = next.pulls (position + c.utf8Size) rest := by
  rw [pulls, stepped]

theorem pulls_of_given {lexeme : Located Lexeme}
    (stepped : s.step position c = .ok (some lexeme, next)) (rest : List Char) :
    s.pulls position (c :: rest) =
      ⟨.ok lexeme, next.depth⟩ :: next.pulls (position + c.utf8Size) rest := by
  rw [pulls, stepped]

theorem pulls_of_failed {e : Error} (stepped : s.step position c = .error e)
    (rest : List Char) : s.pulls position (c :: rest) = [⟨.error e, s.depth⟩] := by
  rw [pulls, stepped]

end Pulls

theorem push_read (read : List Char) (c : Char) :
    (String.ofList read).push c = String.ofList (read ++ [c]) := by
  rw [← String.toList_inj, String.toList_push, String.toList_ofList, String.toList_ofList]

section Steps

variable (origin : Nat) (read : List Char) (place : Nat) (below : List Opening) (position : Nat)

theorem step_in_bracket (b : Bracket) (text : String) (escaped : Bool) (c : Char) :
    (capture origin text escaped ⟨⟨b.opener, place⟩ :: below, some 0⟩).step position c =
      stepEnclosed origin text ⟨⟨b.opener, place⟩ :: below, some 0⟩ position c := by
  simp only [step, Delimiters.innermost?, List.head?_cons, bracket_is_no_quote, Bool.false_eq_true,
    if_false]

theorem step_in_quote (q : Quote) (text : String) (escaped : Bool) (c : Char) :
    (capture origin text escaped ⟨⟨q.mark, place⟩ :: below, some 0⟩).step position c =
      stepQuoted origin text escaped ⟨⟨q.mark, place⟩ :: below, some 0⟩ q.mark position c := by
  simp only [step, Delimiters.innermost?, List.head?_cons, quote_is_quote, if_true]

theorem step_plain (b : Bracket) {c : Char} (plain : IsPlain c) :
    (within origin read (⟨b.opener, place⟩ :: below)).step position c =
      .ok (none, within origin (read ++ [c]) (⟨b.opener, place⟩ :: below)) := by
  rw [within, step_in_bracket, stepEnclosed, enclosed_plain plain, push_read]
  rfl

theorem step_opener (b : Bracket) (e : Enclosure) :
    (within origin read (⟨b.opener, place⟩ :: below)).step position e.opener =
      .ok (none, within origin (read ++ [e.opener])
        (⟨e.opener, position⟩ :: ⟨b.opener, place⟩ :: below)) := by
  rw [within, step_in_bracket, stepEnclosed, enclosed_opener, push_read]
  rfl

theorem step_quoted_plain (q : Quote) {c : Char} (unmarked : c ≠ q.mark) (unescaped : c ≠ '\\') :
    (within origin read (⟨q.mark, place⟩ :: below)).step position c =
      .ok (none, within origin (read ++ [c]) (⟨q.mark, place⟩ :: below)) := by
  rw [within, step_in_quote, stepQuoted, if_neg Bool.false_ne_true, if_neg unescaped,
    if_neg unmarked, push_read]
  rfl

theorem step_backslash (q : Quote) :
    (within origin read (⟨q.mark, place⟩ :: below)).step position '\\' =
      .ok (none, capture origin (String.ofList (read ++ ['\\'])) true
        ⟨⟨q.mark, place⟩ :: below, some 0⟩) := by
  rw [within, step_in_quote, stepQuoted, if_neg Bool.false_ne_true, if_pos rfl, push_read]

theorem step_escaped (q : Quote) (c : Char) :
    (capture origin (String.ofList read) true ⟨⟨q.mark, place⟩ :: below, some 0⟩).step position c =
      .ok (none, within origin (read ++ [c]) (⟨q.mark, place⟩ :: below)) := by
  rw [step_in_quote, stepQuoted, if_pos rfl, push_read]
  rfl

theorem step_closer (e : Enclosure) :
    (within origin read (⟨e.opener, place⟩ :: below)).step position e.closer =
      stepClosing origin (String.ofList read) ⟨⟨e.opener, place⟩ :: below, some 0⟩ position
        e.closer e.opener e.shape := by
  cases e with
  | bracket b =>
      simp only [Enclosure.opener, Enclosure.closer, Enclosure.shape]
      rw [within, step_in_bracket, stepEnclosed, enclosed_closer]
  | quote q =>
      have unescaped : q.mark ≠ '\\' := by cases q <;> decide
      simp only [Enclosure.opener, Enclosure.closer, Enclosure.shape]
      rw [within, step_in_quote, stepQuoted, if_neg Bool.false_ne_true, if_neg unescaped,
        if_pos rfl]

theorem step_outermost_closer (e : Enclosure) :
    (within origin read [⟨e.opener, place⟩]).step position e.closer =
      .ok (some ⟨.capture e.shape e.closer (String.ofList read), origin⟩, gap none) := by
  rw [step_closer, stepClosing, Delimiters.close_outermost]

theorem step_nested_closer (e : Enclosure) (next : Opening) :
    (within origin read (⟨e.opener, place⟩ :: next :: below)).step position e.closer =
      .ok (none, within origin (read ++ [e.closer]) (next :: below)) := by
  rw [step_closer, stepClosing, Delimiters.close_nested]
  dsimp only
  rw [push_read]
  rfl

theorem step_stray_closer {b innermost : Bracket} (different : b ≠ innermost) (text : String)
    (escaped : Bool) :
    (capture origin text escaped ⟨⟨innermost.opener, place⟩ :: below, some 0⟩).step position
      b.closer = .error ⟨.unexpectedToken b.closer, position⟩ := by
  have unmatched : innermost.opener ≠ b.opener := fun same =>
    different (bracket_opener_injective same).symm
  rw [step_in_bracket, stepEnclosed, enclosed_closer]
  dsimp only
  rw [stepClosing, Delimiters.close_unmatched unmatched]

end Steps

/-- With this delimiter innermost the scanner reads the text to its end and has the same delimiters
open again. -/
def PassesThrough (opener : Char) (text : List Char) : Prop :=
  ∀ origin read place below position rest,
    (within origin read (⟨opener, place⟩ :: below)).pulls position (text ++ rest) =
      (within origin (read ++ text) (⟨opener, place⟩ :: below)).pulls (position + byteSize text)
        rest

theorem nothing_passes (opener : Char) : PassesThrough opener [] := by
  intro origin read place below position rest
  rw [List.append_nil, List.nil_append, byte_size_nil, Nat.add_zero]

theorem quoted_passes {q : Quote} {text : List Char} (quoted : Quoted q.mark text) :
    PassesThrough q.mark text := by
  induction quoted with
  | nil => exact nothing_passes _
  | @plain c others unmarked unescaped after induction =>
      intro origin read place below position rest
      rw [List.cons_append, pulls_of_silent (step_quoted_plain _ _ _ _ _ q unmarked unescaped),
        induction _ _ _ _ _ rest, List.append_assoc, List.singleton_append, byte_size_cons,
        Nat.add_assoc]
  | @escape c others after induction =>
      intro origin read place below position rest
      rw [List.cons_append, List.cons_append, pulls_of_silent (step_backslash _ _ _ _ _ q),
        pulls_of_silent (step_escaped _ _ _ _ _ q c), induction _ _ _ _ _ rest]
      simp only [byte_size_cons, List.append_assoc, List.cons_append, List.nil_append,
        Nat.add_assoc]

theorem enclosure_passes (b : Bracket) (e : Enclosure) {inner after : List Char}
    (inside : PassesThrough e.opener inner) (outside : PassesThrough b.opener after) :
    PassesThrough b.opener (e.opener :: inner ++ e.closer :: after) := by
  intro origin read place below position rest
  have opened := step_opener origin read place below position b e
  have closed := step_nested_closer origin (read ++ [e.opener] ++ inner) position below
    (position + e.opener.utf8Size + byteSize inner) e ⟨b.opener, place⟩
  rw [List.append_assoc, List.cons_append, List.cons_append, pulls_of_silent opened,
    inside _ _ _ _ _ (e.closer :: (after ++ rest)), pulls_of_silent closed,
    outside _ _ _ _ _ rest]
  simp only [byte_size_cons, byte_size_append, List.append_assoc, List.cons_append,
    List.nil_append, Nat.add_assoc]

theorem balanced_passes {text : List Char} (balanced : Balanced text) (b : Bracket) :
    PassesThrough b.opener text := by
  induction balanced generalizing b with
  | nil => exact nothing_passes _
  | @plain c others plain after induction =>
      intro origin read place below position rest
      rw [List.cons_append, pulls_of_silent (step_plain _ _ _ _ _ b plain),
        induction b _ _ _ _ _ rest, List.append_assoc, List.singleton_append, byte_size_cons,
        Nat.add_assoc]
  | bracket nested inside after inner outer =>
      exact enclosure_passes b (.bracket nested) (inner nested) (outer b)
  | quoted q inside after induction =>
      exact enclosure_passes b (.quote q) (quoted_passes inside) (induction b)

theorem body_passes {e : Enclosure} {text : List Char} (body : e.Body text) :
    PassesThrough e.opener text := by
  cases e with
  | bracket b => exact balanced_passes body b
  | quote q => exact quoted_passes body

/-- A text that leaves a delimiter open brings that delimiter to the top of the stack. -/
theorem leaves_open_pulls {outer inner : Opened} {start : Nat} {text : List Char}
    (leaves : LeavesOpen outer start text inner) (origin : Nat) (read : List Char)
    (below : List Opening) (rest : List Char) :
    ∃ escaped deeper,
      (within origin read (outer.opening :: below)).pulls start (text ++ rest) =
        (capture origin (String.ofList (read ++ text)) escaped
          ⟨inner.opening :: deeper, some 0⟩).pulls (start + byteSize text) rest := by
  induction leaves generalizing read below with
  | @here outer start text unfinished =>
      obtain ⟨enclosure, place⟩ := outer
      cases enclosure with
      | bracket b => exact ⟨false, below, balanced_passes unfinished b _ _ _ _ _ rest⟩
      | quote q =>
          rcases unfinished with quoted | ⟨before, rfl, quoted⟩
          · exact ⟨false, below, quoted_passes quoted _ _ _ _ _ rest⟩
          · refine ⟨true, below, ?_⟩
            have passed := quoted_passes quoted origin read place below start ('\\' :: rest)
            rw [pulls_of_silent (step_backslash _ _ _ _ _ q)] at passed
            rw [List.append_assoc, List.singleton_append, byte_size_append, ← List.append_assoc,
              ← Nat.add_assoc]
            exact passed
  | @nested b place start before e after inner balanced deeper induction =>
      obtain ⟨escaped, deeperStack, reached⟩ := induction (read ++ before ++ [e.opener])
        (⟨b.opener, place⟩ :: below)
      refine ⟨escaped, deeperStack, ?_⟩
      have passed := balanced_passes balanced b origin read place below start
        (e.opener :: (after ++ rest))
      rw [pulls_of_silent (step_opener _ _ _ _ _ b e)] at passed
      have split : read ++ before ++ [e.opener] ++ after =
          read ++ (before ++ e.opener :: after) := by
        simp only [List.append_assoc, List.singleton_append]
      have size : start + byteSize before + e.opener.utf8Size + byteSize after =
          start + byteSize (before ++ e.opener :: after) := by
        simp only [byte_size_append, byte_size_cons, Nat.add_assoc]
      rw [split, size] at reached
      rw [List.append_assoc, List.cons_append]
      exact passed.trans reached

section Outcomes

variable (e : Enclosure) (position start : Nat) {cs text : List Char}

theorem closed_pulls (body : e.Body text) (rest : List Char) :
    (within position [] [⟨e.opener, position⟩]).pulls start (text ++ e.closer :: rest) =
      ⟨.ok ⟨.capture e.shape e.closer (String.ofList text), position⟩, 0⟩ ::
        (gap none).pulls (start + byteSize text + e.closer.utf8Size) rest := by
  have passed := body_passes body position [] position [] start (e.closer :: rest)
  rw [passed, pulls_of_given (step_outermost_closer _ _ _ _ e)]
  rfl

theorem stray_pulls {b : Bracket} (stray : StrayCloser ⟨e, position⟩ start cs text b) :
    ∃ depth, (within position [] [⟨e.opener, position⟩]).pulls start cs =
      [⟨.error ⟨.unexpectedToken b.closer, start + byteSize text⟩, depth⟩] := by
  obtain ⟨rest, innermost, place, rfl, leaves, different⟩ := stray
  obtain ⟨escaped, deeper, reached⟩ := leaves_open_pulls leaves position [] []
    (b.closer :: rest)
  have failed := step_stray_closer position place deeper (start + byteSize text) different
    (String.ofList ([] ++ text)) escaped
  exact ⟨_, reached.trans (pulls_of_failed failed rest)⟩

theorem unclosed_pulls {inner : Opened} (leaves : LeavesOpen ⟨e, position⟩ start cs inner) :
    ∃ depth, (within position [] [⟨e.opener, position⟩]).pulls start cs =
      [⟨.error ⟨.unclosedDelimiter inner.enclosure.opener, inner.position⟩, depth⟩] := by
  obtain ⟨escaped, deeper, reached⟩ := leaves_open_pulls leaves position [] [] []
  rw [List.append_nil] at reached
  exact ⟨_, reached⟩

theorem opened_pull_cases {pull : Pull} {lexeme : Located Lexeme}
    (member : pull ∈ (within position [] [⟨e.opener, position⟩]).pulls start cs)
    (given : pull.result = .ok lexeme) :
    ∃ body rest, cs = body ++ e.closer :: rest ∧ e.Body body ∧
      (lexeme = ⟨.capture e.shape e.closer (String.ofList body), position⟩ ∨
        pull ∈ (gap none).pulls (start + byteSize body + e.closer.utf8Size) rest) := by
  cases reading_total ⟨e, position⟩ start cs with
  | @closed body rest split inside =>
      refine ⟨body, rest, split, inside, ?_⟩
      rw [split, closed_pulls e position start inside rest] at member
      rcases List.mem_cons.mp member with rfl | later
      · cases given
        exact .inl rfl
      · exact .inr later
  | stray stray =>
      obtain ⟨depth, pulled⟩ := stray_pulls e position start stray
      rw [pulled] at member
      obtain rfl := List.mem_singleton.mp member
      cases given
  | unclosed leaves =>
      obtain ⟨depth, pulled⟩ := unclosed_pulls e position start leaves
      rw [pulled] at member
      obtain rfl := List.mem_singleton.mp member
      cases given

end Outcomes

def isOutside : Scanner → Bool
  | capture .. | done => false
  | _ => true

/-- The lexeme that an opening delimiter puts an end to. -/
def interrupted : Scanner → Option (Located Lexeme)
  | operator first origin => some ⟨.operator first, origin⟩
  | s => s.finishedName <|> s.separatingSpace

def interruptedPulls (s : Scanner) : List Pull :=
  s.interrupted.toList.map fun lexeme => ⟨.ok lexeme, 1⟩

theorem join_opener (first : Operator) (e : Enclosure) : first.join? e.opener = none := by
  cases e with
  | bracket b => cases b <;> cases first <;> rfl
  | quote q => cases q <;> cases first <;> rfl

theorem step_opening {s : Scanner} (outside : s.isOutside = true) (e : Enclosure)
    (position : Nat) : s.step position e.opener =
      .ok (s.interrupted, within position [] [⟨e.opener, position⟩]) := by
  have role := (outside_opening_iff e.opener).mpr ⟨e, rfl⟩
  cases s with
  | start => simp only [step, stepOutside, role]; rfl
  | gap space => simp only [step, stepOutside, role]; rfl
  | word origin text => simp only [step, stepOutside, role]; rfl
  | operand => simp only [step, stepOutside, role]; rfl
  | operator first origin => simp only [step, join_opener, stepOutside, role]; rfl
  | capture origin text escaped delimiters => cases outside
  | done => cases outside

theorem opening_pulls {s : Scanner} (outside : s.isOutside = true) (e : Enclosure)
    (position : Nat) (cs : List Char) : s.pulls position (e.opener :: cs) =
      s.interruptedPulls ++ (within position [] [⟨e.opener, position⟩]).pulls
        (position + e.opener.utf8Size) cs := by
  have stepped := step_opening outside e position
  unfold interruptedPulls
  cases given : s.interrupted with
  | none =>
      rw [given] at stepped
      exact pulls_of_silent stepped cs
  | some lexeme =>
      rw [given] at stepped
      exact pulls_of_given stepped cs

theorem interrupted_is_no_capture {s : Scanner} {pull : Pull} (member : pull ∈ s.interruptedPulls)
    (shape : Shape) (closing : Char) (text : String) (position : Nat) :
    pull.result ≠ .ok ⟨.capture shape closing text, position⟩ := by
  obtain ⟨lexeme, given, rfl⟩ := List.mem_map.mp member
  rw [Option.mem_toList] at given
  intro same
  cases same
  cases s with
  | gap space => cases space <;> cases given
  | start => cases given
  | word origin text => cases given
  | operand => cases given
  | operator first origin => cases given
  | capture origin text escaped delimiters => cases given
  | done => cases given

/-- What a step outside delimiters leads to unless it opens one: no capture is given, and the
scanner stays outside or the line ends. -/
structure StaysOutside (emitted : Option (Located Lexeme)) (next : Scanner) : Prop where
  next_outside : next.isOutside = true ∨ next = done
  no_capture : ∀ shape closing text position,
    emitted ≠ some ⟨.capture shape closing text, position⟩

theorem finished_no_capture (s : Scanner) (shape : Shape) (closing : Char) (text : String)
    (position : Nat) : s.finishedName ≠ some ⟨.capture shape closing text, position⟩ := by
  intro same
  cases s <;> cases same

theorem separating_no_capture (s : Scanner) (shape : Shape) (closing : Char) (text : String)
    (position : Nat) : s.separatingSpace ≠ some ⟨.capture shape closing text, position⟩ := by
  intro same
  cases s with
  | gap space => cases space <;> cases same
  | _ => cases same

theorem step_operator_stays {s next : Scanner} {op : Operator} {position : Nat} {c : Char}
    {emitted : Option (Located Lexeme)}
    (stepped : s.stepOperator op position c = .ok (emitted, next)) :
    StaysOutside emitted next := by
  unfold stepOperator at stepped
  split at stepped
  · cases stepped
  · split at stepped
    · cases stepped
      exact ⟨.inl rfl, by simp⟩
    · cases stepped
      exact ⟨.inl rfl, finished_no_capture _⟩
  · cases stepped
    exact ⟨.inl rfl, by simp⟩

theorem step_text_stays {s next : Scanner} {position : Nat} {c : Char}
    {emitted : Option (Located Lexeme)} (stepped : s.stepText position c = (emitted, next)) :
    StaysOutside emitted next := by
  unfold stepText at stepped
  split at stepped
  · cases stepped
    exact ⟨.inl rfl, by simp⟩
  · cases stepped
    exact ⟨.inl rfl, separating_no_capture _⟩

theorem step_outside_stays {s next : Scanner} {position : Nat} {c : Char}
    {emitted : Option (Located Lexeme)} (outside : s.isOutside = true)
    (unopened : Character.outside c ≠ some .opening)
    (stepped : s.stepOutside position c = .ok (emitted, next)) : StaysOutside emitted next := by
  unfold stepOutside at stepped
  split at stepped
  · cases stepped
    exact ⟨.inr rfl, finished_no_capture s⟩
  · cases stepped
    refine ⟨.inl ?_, finished_no_capture s⟩
    unfold stepBlank
    split
    · rfl
    · rfl
    · exact outside
  · rename_i opening
    exact absurd opening unopened
  · cases stepped
  · exact step_operator_stays stepped
  · exact step_operator_stays stepped
  · exact step_operator_stays stepped
  · exact step_text_stays (Except.ok.inj stepped)
  · exact step_text_stays (Except.ok.inj stepped)

theorem step_stays_outside {s next : Scanner} {position : Nat} {c : Char}
    {emitted : Option (Located Lexeme)} (outside : s.isOutside = true)
    (unopened : Character.outside c ≠ some .opening)
    (stepped : s.step position c = .ok (emitted, next)) : StaysOutside emitted next := by
  cases s with
  | start => exact step_outside_stays rfl unopened stepped
  | gap space => exact step_outside_stays rfl unopened stepped
  | word origin text => exact step_outside_stays rfl unopened stepped
  | operand => exact step_outside_stays rfl unopened stepped
  | operator first origin =>
      simp only [step] at stepped
      split at stepped
      · cases stepped
        exact ⟨.inl rfl, by simp⟩
      · split at stepped
        · cases stepped
        · rename_i outsideStepped
          cases stepped
          have stays := step_outside_stays rfl unopened outsideStepped
          exact ⟨stays.next_outside, by simp⟩
  | capture origin text escaped delimiters => cases outside
  | done => cases outside

theorem done_pulls (position : Nat) (cs : List Char) : done.pulls position cs = [] := by
  induction cs generalizing position with
  | nil => rfl
  | cons c rest induction =>
      rw [pulls_of_silent rfl]
      exact induction _

theorem finish_no_capture {s : Scanner} (outside : s.isOutside = true) (shape : Shape)
    (closing : Char) (text : String) (position : Nat) :
    s.finish ≠ .ok (some ⟨.capture shape closing text, position⟩) := by
  intro same
  cases s with
  | capture origin text escaped delimiters => cases outside
  | _ => cases same

theorem captured_body {s : Scanner} (outside : s.isOutside = true) {position : Nat}
    {cs : List Char} {pull : Pull} (member : pull ∈ s.pulls position cs) {shape : Shape}
    {closing : Char} {text : String} {origin : Nat}
    (given : pull.result = .ok ⟨.capture shape closing text, origin⟩) :
    ∃ e : Enclosure, shape = e.shape ∧ closing = e.closer ∧ e.Body text.toList := by
  -- A capture is passed over as a whole, so the induction is on the length.
  induction size : cs.length using Nat.strongRecOn generalizing s position cs with
  | ind size induction =>
      subst size
      cases cs with
      | nil =>
          rw [pulls] at member
          split at member
          · rename_i last finished
            obtain rfl := List.mem_singleton.mp member
            cases given
            exact absurd finished (finish_no_capture outside _ _ _ _)
          · cases member
          · obtain rfl := List.mem_singleton.mp member
            cases given
      | cons c rest =>
          by_cases opening : Character.outside c = some .opening
          · obtain ⟨e, rfl⟩ := (outside_opening_iff c).mp opening
            rw [opening_pulls outside] at member
            rcases List.mem_append.mp member with before | member
            · exact absurd given (interrupted_is_no_capture before _ _ _ _)
            · obtain ⟨body, remaining, split, inside, same | later⟩ :=
                opened_pull_cases e position _ member given
              · cases same
                refine ⟨e, rfl, rfl, ?_⟩
                rw [String.toList_ofList]
                exact inside
              · have shorter : remaining.length < (e.opener :: rest).length := by
                  rw [split]
                  simp only [List.length_cons, List.length_append]
                  omega
                exact induction _ shorter rfl later rfl
          · cases stepped : s.step position c with
            | error e =>
                rw [pulls_of_failed stepped] at member
                obtain rfl := List.mem_singleton.mp member
                cases given
            | ok outcome =>
                obtain ⟨emitted, next⟩ := outcome
                have stays := step_stays_outside outside opening stepped
                have later : pull ∈ next.pulls (position + c.utf8Size) rest := by
                  cases emitted with
                  | none =>
                      rw [pulls_of_silent stepped] at member
                      exact member
                  | some lexeme =>
                      rw [pulls_of_given stepped] at member
                      rcases List.mem_cons.mp member with rfl | later
                      · cases given
                        exact absurd rfl (stays.no_capture _ _ _ _)
                      · exact later
                rcases stays.next_outside with nextOutside | rfl
                · exact induction rest.length (by simp) nextOutside later rfl
                · rw [done_pulls] at later
                  cases later

end Scanner

/-- After an opening delimiter, `text` is a body and the closer follows it. -/
def ClosesAfter (e : Enclosure) (cs text : List Char) : Prop :=
  e.Body text ∧ text ++ [e.closer] <+: cs

theorem closes_after_split {e : Enclosure} {cs text : List Char} (closes : ClosesAfter e cs text) :
    ∃ rest, cs = text ++ e.closer :: rest := by
  obtain ⟨_, rest, rfl⟩ := closes
  exact ⟨rest, by rw [List.append_assoc, List.singleton_append]⟩

theorem closes_after_unique {e : Enclosure} {cs text other : List Char}
    (closes : ClosesAfter e cs text) (closesOther : ClosesAfter e cs other) : text = other := by
  obtain ⟨rest, split⟩ := closes_after_split closes
  obtain ⟨remaining, splitOther⟩ := closes_after_split closesOther
  have pulled := Scanner.closed_pulls e 0 0 closes.1 rest
  have pulledOther := Scanner.closed_pulls e 0 0 closesOther.1 remaining
  rw [← split] at pulled
  rw [← splitOther, pulled] at pulledOther
  have texts : String.ofList text = String.ofList other := by
    injection pulledOther with first
    injection first with result
    injection result with lexeme
    injection lexeme with item
    injection item
  exact String.ofList_inj.mp texts

theorem stray_closer_unique {outer : Opened} {start : Nat} {cs text other : List Char}
    {b another : Bracket} (stray : StrayCloser outer start cs text b)
    (strayOther : StrayCloser outer start cs other another) : text = other ∧ b = another := by
  obtain ⟨e, position⟩ := outer
  obtain ⟨depth, pulled⟩ := Scanner.stray_pulls e position start stray
  obtain ⟨depthOther, pulledOther⟩ := Scanner.stray_pulls e position start strayOther
  rw [pulled] at pulledOther
  injection pulledOther with first
  injection first with result
  injection result with error
  injection error with cause reported
  injection cause with token
  obtain ⟨rest, _, _, split, _⟩ := stray
  obtain ⟨remaining, _, _, splitOther, _⟩ := strayOther
  rw [split] at splitOther
  exact ⟨same_size_front splitOther (by omega), bracket_closer_injective token⟩

theorem capture_given_iff {s : Scanner} (outside : s.isOutside = true) (e : Enclosure)
    (position : Nat) (cs : List Char) (shape : Shape) (closing : Char) (text : String) :
    (∃ pull ∈ s.pulls position (e.opener :: cs),
        pull.result = .ok ⟨.capture shape closing text, position⟩) ↔
      .closing e.opener shape ∈ Character.roles closing ∧ ClosesAfter e cs text.toList := by
  rw [closing_role_iff, Scanner.opening_pulls outside]
  constructor
  · intro found
    obtain ⟨pull, member, given⟩ := found
    rcases List.mem_append.mp member with before | member
    · exact absurd given (Scanner.interrupted_is_no_capture before _ _ _ _)
    · obtain ⟨body, rest, split, inside, same | later⟩ :=
        Scanner.opened_pull_cases e position _ member given
      · cases same
        refine ⟨⟨rfl, rfl⟩, ?_⟩
        rw [String.toList_ofList]
        exact ⟨inside, rest, by rw [split, List.append_assoc, List.singleton_append]⟩
      · -- What is given after this capture stands after it.
        have reached : position + e.opener.utf8Size + byteSize body + e.closer.utf8Size ≤
            position := Scanner.pulls_base_le Scanner.Holds.captured later given
        have positive := e.opener.utf8Size_pos
        omega
  · intro found
    obtain ⟨⟨rfl, rfl⟩, closes⟩ := found
    obtain ⟨rest, split⟩ := closes_after_split closes
    rw [split, Scanner.closed_pulls e position _ closes.1 rest, String.ofList_toList]
    exact ⟨_, List.mem_append_right _ List.mem_cons_self, rfl⟩

/-- The scanner keeps exactly the balanced texts after an opening delimiter, and tells of every
other text what is wrong with it and where. -/
theorem capture_accepts_exactly_balanced (s : Scanner) (outside : s.isOutside = true)
    (e : Enclosure) (position : Nat) (cs : List Char) :
    let pulled := s.pulls position (e.opener :: cs)
    let start := position + e.opener.utf8Size
    (∀ shape closing text,
      (∃ pull ∈ pulled, pull.result = .ok ⟨.capture shape closing text, position⟩) ↔
        .closing e.opener shape ∈ Character.roles closing ∧ ClosesAfter e cs text.toList) ∧
    (∀ text other, ClosesAfter e cs text → ClosesAfter e cs other → text = other) ∧
    ((∀ text, ¬ClosesAfter e cs text) → ∃ error depth,
      pulled = s.interruptedPulls ++ [⟨.error error, depth⟩] ∧
      ((∃ text b, StrayCloser ⟨e, position⟩ start cs text b ∧
          (∀ other another, StrayCloser ⟨e, position⟩ start cs other another →
            text = other ∧ b = another) ∧
          error = ⟨.unexpectedToken b.closer, start + byteSize text⟩) ∨
        (∀ text b, ¬StrayCloser ⟨e, position⟩ start cs text b) ∧
          ∃ inner, LeavesOpen ⟨e, position⟩ start cs inner ∧
            error = ⟨.unclosedDelimiter inner.enclosure.opener, inner.position⟩)) := by
  intro pulled start
  refine ⟨capture_given_iff outside e position cs, fun _ _ => closes_after_unique, ?_⟩
  intro unclosed
  have opened := Scanner.opening_pulls outside e position cs
  cases reading_total ⟨e, position⟩ start cs with
  | @closed body rest split inside =>
      refine absurd ⟨inside, rest, ?_⟩ (unclosed body)
      rw [split, List.append_assoc, List.singleton_append]
  | @stray text b stray =>
      obtain ⟨depth, failed⟩ := Scanner.stray_pulls e position start stray
      refine ⟨_, depth, opened.trans (congrArg _ failed), .inl ⟨text, b, stray, ?_, rfl⟩⟩
      intro other another strayOther
      exact stray_closer_unique stray strayOther
  | unclosed leaves =>
      obtain ⟨depth, failed⟩ := Scanner.unclosed_pulls e position start leaves
      refine ⟨_, depth, opened.trans (congrArg _ failed), .inr ⟨?_, _, leaves, rfl⟩⟩
      intro text b stray
      obtain ⟨otherDepth, strayFailed⟩ := Scanner.stray_pulls e position start stray
      rw [failed] at strayFailed
      cases strayFailed

theorem capture_hides_quoted_bracket :
    (Scanner.word 0 "f").isOutside = true ∧
    ∃ pull ∈ (Scanner.word 0 "f").pulls 1
        ((Enclosure.bracket .round).opener :: "[\")\"]) x".toList),
      pull.result = .ok ⟨.capture .tuple ')' "[\")\"]", 1⟩ := by
  have quoted : Balanced ['"', ')', '"'] :=
    @Balanced.quoted .double [')'] [] (.plain (by decide) (by decide) .nil) .nil
  have body : Balanced ['[', '"', ')', '"', ']'] :=
    @Balanced.bracket .square ['"', ')', '"'] [] quoted .nil
  have exactly := capture_accepts_exactly_balanced (.word 0 "f") rfl (.bracket .round) 1
    "[\")\"]) x".toList
  exact ⟨rfl, (exactly.1 .tuple ')' "[\")\"]").mpr ⟨by decide, body, by decide⟩⟩

end LineShell
