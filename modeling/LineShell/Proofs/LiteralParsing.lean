import LineShell.Proofs.LiteralSyntax

/-!
The parser and the reader agree. The reader goes through the tokens that the parser takes, from a
state that waits for a value to the state after it, and the parser has then the value of the literal
that the reader has read; where the one fails, the other fails in the same way.
-/

namespace LineShell

namespace Literal

namespace Reader

variable (stuck : Option Nat)

theorem result_nil (r : Reader) :
    result stuck r [] =
      match stuck with
      | some offset => .error (.unrecognized offset)
      | none => r.finish := by
  cases stuck <;> rfl

theorem result_cons (r : Reader) (token : Token) (rest : List Token) :
    result stuck r (token :: rest) =
      match r.step token with
      | .error fault => .error fault
      | .ok next => result stuck next rest := by
  unfold result
  rw [steps, List.foldlM_cons]
  cases r.step token <;> rfl

def begins (slot : Slot) (outer : List Slot) (tokens : List Token) : Except Fault Literal :=
  match tokens, stuck with
  | [], some offset => .error (.unrecognized offset)
  | [], none => .error .expectedValue
  | token :: rest, _ =>
    match begin slot outer token with
    | .error fault => .error fault
    | .ok next => result stuck next rest

def resumes (outer : List Slot) (literal : Literal) (tokens : List Token) : Except Fault Literal :=
  match outer with
  | [] => .ok literal
  | slot :: rest => result stuck ⟨.separator (slot.fill literal), rest⟩ tokens

theorem begin_member (members : List (String × Literal)) (outer : List Slot) (token : Token) :
    beginElement (.object members) outer token =
      match token.key? with
      | some key => .ok ⟨.colon members key, outer⟩
      | none => .error (.invalidKey token) := by
  cases token <;> rfl

end Reader

namespace Descent

open Reader

/-- The bracket that ends a list, if there are lists around it. -/
def closing (list : OpenList) : List Slot → Option Token
  | [] => none
  | _ :: _ => some list.bracket

/-- The parser fails as the reader does, or has the value of what the reader has read. -/
inductive Tracks {α β : Type} {Left : List Token → Prop} (denote : β → α)
    (goesOn : β → List Token → Except Fault Literal) :
    Except Fault (α × Subtype Left) → Except Fault Literal → Prop where
  | failed (fault : Fault) : Tracks denote goesOn (.error fault) (.error fault)
  | reached {read : Except Fault Literal} (found : β) (rest : Subtype Left)
      (same : goesOn found rest.val = read) : Tracks denote goesOn (.ok (denote found, rest)) read

theorem Tracks.bind {α β γ δ : Type} {Left Later : List Token → Prop} {denote : β → α}
    {goesOn : β → List Token → Except Fault Literal} {denoteNext : δ → γ}
    {goesOnNext : δ → List Token → Except Fault Literal}
    {parsed : Except Fault (α × Subtype Left)}
    {next : α × Subtype Left → Except Fault (γ × Subtype Later)} {read : Except Fault Literal}
    (tracks : Tracks denote goesOn parsed read)
    (follows : ∀ found rest,
      Tracks denoteNext goesOnNext (next (denote found, rest)) (goesOn found rest.val)) :
    Tracks denoteNext goesOnNext (parsed >>= next) read := by
  cases tracks with
  | failed fault => exact .failed fault
  | reached found rest same => exact same ▸ follows found rest

section Ends

variable {stuck : Option Nat} {list : OpenList} {outer : List Slot} {tokens : List Token}

theorem bracket_not_comma (list : OpenList) : list.bracket ≠ .comma := by
  cases list <;> exact Token.noConfusion

theorem result_comma (rest : List Token) :
    result stuck ⟨.separator list, outer⟩ (.comma :: rest) =
      result stuck ⟨.element list, outer⟩ rest := by
  cases outer with
  | nil => rfl
  | cons slot outer =>
      simp only [result_cons, step, close?, if_neg (bracket_not_comma list).symm, if_pos]

/-- Where a list ends there is no comma, and an element is not waited for any more. -/
theorem at_end (ends : atEnd stuck (closing list outer) tokens = true) :
    tokens.head? ≠ some .comma ∧
      result stuck ⟨.element list, outer⟩ tokens =
        result stuck ⟨.separator list, outer⟩ tokens := by
  cases outer with
  | nil =>
      have none_left : tokens = [] ∧ stuck = none := by simpa [atEnd, closing] using ends
      obtain ⟨rfl, rfl⟩ := none_left
      exact ⟨by simp, rfl⟩
  | cons slot outer =>
      have closes : tokens.head? = some list.bracket := by simpa [atEnd, closing] using ends
      obtain ⟨rest, rfl⟩ := List.head?_eq_some_iff.mp closes
      refine ⟨fun same => bracket_not_comma list (Option.some.inj same), ?_⟩
      simp only [result_cons, step, close?, if_pos]

theorem close_none {token : Token} {rest : List Token}
    (goesOn : atEnd stuck (closing list outer) (token :: rest) = false) :
    close? list outer token = none := by
  cases outer with
  | nil => rfl
  | cons slot outer => simpa [atEnd, closing, close?] using goesOn

theorem finish_tracks {α β : Type} (denote : β → α)
    (goesOn : List β → List Token → Except Fault Literal) (held : List β)
    (uncontinued : tokens.head? ≠ some .comma)
    (ended : goesOn held = resumes stuck outer list.close) :
    Tracks (List.map denote) goesOn (finish stuck (closing list outer) (held.map denote) tokens)
      (result stuck ⟨.separator list, outer⟩ tokens) := by
  cases tokens with
  | nil =>
      rw [result_nil]
      cases stuck with
      | some offset => exact .failed (.unrecognized offset)
      | none =>
          cases outer with
          | nil => exact .reached held ⟨[], Nat.le_refl _⟩ (congrFun ended [])
          | cons slot outer => exact .failed .unexpectedEnd
  | cons token rest =>
      have other : token ≠ .comma := fun same => uncontinued (congrArg some same)
      rw [result_cons]
      cases outer with
      | nil =>
          simp only [step, close?, if_neg other]
          exact .failed (.unexpected token)
      | cons slot outer =>
          by_cases closes : token = list.bracket
          · simp only [finish, next?, closing, step, close?, bind, Except.bind, if_pos closes]
            exact .reached held ⟨rest, Nat.le_succ _⟩ (congrFun ended rest)
          · simp only [finish, next?, closing, step, close?, bind, Except.bind, if_neg closes,
              if_neg other]
            exact .failed (.unexpected token)

end Ends

section Lists

variable {stuck : Option Nat} {α β : Type} {denote : β → α} {opened : List β → OpenList}
  {make : List β → Literal}

abbrev ElementTracks (stuck : Option Nat) (denote : β → α) (opened : List β → OpenList)
    {bound : Nat} (element : Element α bound) : Prop :=
  ∀ tokens within held outer, atEnd stuck (closing (opened held) outer) tokens = false →
    Tracks denote (fun item => result stuck ⟨.separator (opened (item :: held)), outer⟩)
      (element tokens within) (result stuck ⟨.element (opened held), outer⟩ tokens)

/-- A whole list is parsed as the reader reads it if its elements are. -/
theorem list_tracks {bound : Nat} {element : Element α bound}
    (elements : ElementTracks stuck denote opened element)
    (bracket : ∀ item held, (opened (item :: held)).bracket = (opened held).bracket)
    (made : ∀ held, (opened held).close = make held.reverse) (tokens : List Token)
    (within : tokens.length ≤ bound) (held : List β) (outer : List Slot) :
    Tracks (List.map denote) (fun more => resumes stuck outer (make (held.reverse ++ more)))
      (parseList stuck element (closing (opened held) outer) tokens within)
      (result stuck ⟨.element (opened held), outer⟩ tokens) := by
  obtain ⟨count, counted⟩ : ∃ count, tokens.length = count := ⟨_, rfl⟩
  induction count using Nat.strongRecOn generalizing tokens held with
  | ind count induction =>
      subst counted
      have sameClosing : ∀ item, closing (opened (item :: held)) outer =
          closing (opened held) outer := by
        intro item
        cases outer with
        | nil => rfl
        | cons slot outer => rw [closing, closing, bracket]
      rw [parseList]
      cases ends : atEnd stuck (closing (opened held) outer) tokens with
      | true =>
          rw [(at_end ends).2]
          refine finish_tracks denote _ [] (at_end ends).1 ?_
          rw [made, List.append_nil]
      | false =>
          refine (elements tokens within held outer ends).bind ?_
          intro item rest
          obtain ⟨left, shorter⟩ := rest
          split
          · rename_i after shorter same
            obtain ⟨rfl, same⟩ := Prod.mk.inj same
            cases same
            have tracks := induction after.length (Nat.lt_of_succ_lt shorter) after
              (Nat.le_trans (Nat.le_of_lt (Nat.lt_of_succ_lt shorter)) within) (item :: held) rfl
            rw [sameClosing] at tracks
            rw [result_comma]
            refine tracks.bind ?_
            intro more left
            refine .reached (item :: more) _ ?_
            rw [List.reverse_cons, List.append_assoc, List.singleton_append]
          · rename_i uncontinued same
            obtain ⟨rfl, rfl⟩ := Prod.mk.inj same
            have other : left.head? ≠ some .comma := by
              intro begins
              obtain ⟨after, rfl⟩ := List.head?_eq_some_iff.mp begins
              exact uncontinued after shorter rfl
            rw [← sameClosing item]
            have tracks := finish_tracks denote
              (fun more => resumes stuck outer (make (held.reverse ++ more))) [item] other
              (by rw [made, List.reverse_cons])
            refine tracks.bind ?_
            intro more left
            exact .reached more _ rfl

end Lists

section Values

variable (env : Environment) (stuck : Option Nat)

inductive Row where
  | tuple
  | array

def Row.list : Row → List Literal → OpenList
  | tuple => .tuple
  | array => .array

def Row.slot : Row → List Literal → Slot
  | tuple => .tuple
  | array => .array

abbrev ValueTracks (tokens : List Token) : Prop :=
  ∀ slot outer, Tracks (value env.sourceOf)
    (fun literal => result stuck ⟨.separator (slot.fill literal), outer⟩)
    (parseValue stuck env tokens) (begins stuck slot outer tokens)

variable {env stuck} {bound : Nat}

theorem item_tracks (row : Row)
    (values : ∀ tokens : List Token, tokens.length ≤ bound → ValueTracks env stuck tokens) :
    ElementTracks stuck (value env.sourceOf) row.list
      (fun tokens (_ : tokens.length ≤ bound) => parseValue stuck env tokens) := by
  intro tokens within items outer goesOn
  have begun : result stuck ⟨.element (row.list items), outer⟩ tokens =
      begins stuck (row.slot items) outer tokens := by
    cases tokens with
    | nil =>
        rw [result_nil]
        cases stuck with
        | some offset => rfl
        | none =>
            cases outer with
            | nil => cases goesOn
            | cons slot outer => cases row <;> rfl
    | cons token rest =>
        rw [result_cons]
        simp only [step, close_none goesOn]
        cases row <;> rfl
  have tracks := values tokens within (row.slot items) outer
  rw [begun]
  cases row with
  | tuple => exact tracks
  | array => exact tracks

theorem key_tracks {members : List (String × Literal)} {outer : List Slot} {tokens : List Token}
    (goesOn : atEnd stuck (closing (.object members) outer) tokens = false) :
    Tracks id (fun key => result stuck ⟨.value members key, outer⟩) (parseKey stuck tokens)
      (result stuck ⟨.element (.object members), outer⟩ tokens) := by
  cases tokens with
  | nil =>
      rw [result_nil]
      cases stuck with
      | some offset => exact .failed (.unrecognized offset)
      | none =>
          cases outer with
          | nil => cases goesOn
          | cons slot outer => exact .failed .unexpectedEnd
  | cons token rest =>
      rw [result_cons]
      simp only [step, close_none goesOn, begin_member, parseKey, next?, bind, Except.bind]
      cases token.key? with
      | none => exact .failed (.invalidKey token)
      | some key =>
          cases rest with
          | nil =>
              cases stuck with
              | some offset => exact .failed (.unrecognized offset)
              | none => exact .failed (.expectedColon key)
          | cons second left =>
              simp only [result_cons]
              cases second
              case colon => exact .reached key _ rfl
              all_goals exact .failed (.expectedColon key)

theorem member_tracks
    (values : ∀ tokens : List Token, tokens.length ≤ bound → ValueTracks env stuck tokens) :
    ElementTracks stuck (fun member : String × Literal => (member.1, value env.sourceOf member.2))
      .object (parseMember stuck
        fun tokens (_ : tokens.length ≤ bound) => parseValue stuck env tokens) := by
  intro tokens within members outer goesOn
  refine (key_tracks goesOn).bind ?_
  intro key rest
  have begun : result stuck ⟨.value members key, outer⟩ rest.val =
      begins stuck (.object members key) outer rest.val := by
    cases rest.val with
    | nil => cases stuck <;> rfl
    | cons token rest => exact result_cons _ _ _ _
  have shorter : rest.val.length ≤ bound := Nat.le_trans (Nat.le_of_lt rest.property) within
  rw [begun]
  refine (values rest.val shorter (.object members key) outer).bind ?_
  intro item left
  exact .reached (key, item) _ rfl

/-- The parser keeps step with the reader through a value. The induction is on the number of tokens,
and the elements of a nested list have fewer than the list. -/
theorem value_tracks (tokens : List Token) : ValueTracks env stuck tokens := by
  obtain ⟨count, counted⟩ : ∃ count, tokens.length = count := ⟨_, rfl⟩
  induction count using Nat.strongRecOn generalizing tokens with
  | ind count induction =>
      subst counted
      intro slot outer
      rw [parseValue]
      cases tokens with
      | nil =>
          cases stuck with
          | some offset => exact .failed (.unrecognized offset)
          | none => exact .failed .expectedValue
      | cons token rest =>
          have nested : ∀ inner : List Token, inner.length ≤ rest.length →
              ValueTracks env stuck inner :=
            fun inner within => induction inner.length (Nat.lt_succ_of_le within) inner rfl
          have goesOn : ∀ literal (left : Rest rest), Tracks (value env.sourceOf)
              (fun literal => result stuck ⟨.separator (slot.fill literal), outer⟩)
              (.ok (value env.sourceOf literal,
                (⟨left.val, Nat.lt_succ_of_le left.property⟩ : Shorter (token :: rest))))
              (result stuck ⟨.separator (slot.fill literal), outer⟩ left.val) :=
            fun literal left => .reached literal _ rfl
          have atom := fun literal => goesOn literal ⟨rest, Nat.le_refl _⟩
          cases token with
          | integer value => exact atom (.integer value)
          | real value => exact atom (.real value)
          | bool value => exact atom (.bool value)
          | null => exact atom .null
          | undefined => exact atom .undefined
          | string value => exact atom (.string value)
          | identifier identifier => exact atom (.name identifier)
          | leftParen =>
              have tracks := list_tracks (item_tracks .tuple nested) (fun _ _ => rfl) (fun _ => rfl)
                rest (Nat.le_refl _) [] (slot :: outer)
              refine tracks.bind ?_
              intro items left
              have reached := goesOn (.tuple items) left
              rw [tuple_value] at reached
              exact reached
          | leftBracket =>
              have tracks := list_tracks (item_tracks .array nested) (fun _ _ => rfl) (fun _ => rfl)
                rest (Nat.le_refl _) [] (slot :: outer)
              refine tracks.bind ?_
              intro items left
              have reached := goesOn (.array items) left
              rw [array_value] at reached
              exact reached
          | leftBrace =>
              have tracks := list_tracks (member_tracks nested) (fun _ _ => rfl) (fun _ => rfl)
                rest (Nat.le_refl _) [] (slot :: outer)
              refine tracks.bind ?_
              intro members left
              have reached := goesOn (.object members) left
              rw [object_value] at reached
              exact reached
          | rightParen | rightBracket | rightBrace | comma | colon => exact .failed (.unexpected _)

end Values

theorem Tracks.outermost {α β : Type} {Left : List Token → Prop} {denote : β → α}
    {stuck : Option Nat} {env : Environment} {make : List α → Value} {write : List β → Literal}
    {parsed : Except Fault (List α × Subtype Left)} {read : Except Fault Literal}
    (tracks : Tracks (List.map denote) (fun found => resumes stuck [] (write found)) parsed read)
    (means : ∀ found, (write found).value env.sourceOf = make (found.map denote)) :
    (parsed >>= fun (held, _) => Except.ok (make held)) =
      read >>= fun literal => .ok (literal.value env.sourceOf) := by
  cases tracks with
  | failed fault => rfl
  | reached found rest same =>
      rw [← same]
      exact congrArg Except.ok (means found).symm

end Descent

open Descent

theorem parse_eq (env : Environment) (shape : Shape) (raw : String) :
    parse env shape raw = read shape raw >>= fun literal => .ok (literal.value env.sourceOf) := by
  have values : ∀ inner : List Token,
      inner.length ≤ ((lex raw).tokens.map Spanned.token).length →
        ValueTracks env (lex raw).fault inner := fun inner _ => value_tracks inner
  cases shape with
  | string => rfl
  | tuple =>
      have tracks := list_tracks (item_tracks .tuple values) (fun _ _ => rfl) (fun _ => rfl) _
        (Nat.le_refl _) [] []
      exact tracks.outermost fun items => tuple_value _ items
  | array =>
      have tracks := list_tracks (item_tracks .array values) (fun _ _ => rfl) (fun _ => rfl) _
        (Nat.le_refl _) [] []
      exact tracks.outermost fun items => array_value _ items
  | object =>
      have tracks := list_tracks (member_tracks values) (fun _ _ => rfl) (fun _ => rfl) _
        (Nat.le_refl _) [] []
      exact tracks.outermost fun members => object_value _ members

end Literal

theorem Environment.value_of_read (env : Environment) (shape : Shape) (raw : String)
    (position : Nat) :
    env.valueOf shape raw position =
      match Literal.read shape raw with
      | .ok literal => .ok (literal.value env.sourceOf)
      | .error fault => .error ⟨.malformedLiteral fault, position⟩ := by
  rw [valueOf, Literal.parse_eq]
  cases Literal.read shape raw <;> rfl

end LineShell
