import LineShell.Proofs.Spelling
import LineShell.Session

/-!
Printing a value and running the text gives the value back. The printer's escapes are escapes that
both readers know, its keys are identifiers and its integers keep their sign, so what it writes of a
composite value spells the value. Reals are left out: what is printed of a whole real reads back as
an integer. Main statement: a line that is the text of a readable composite value completes with
that value alone, whatever names are bound.
-/

namespace LineShell

open Literal

namespace Text

/-- The escapes of two characters that stand for what was written. -/
def readableEscapes : List (List Char) :=
  [['\\', '"'], ['\\', '\\'], ['\\', 'n'], ['\\', 'r'], ['\\', 't']]

/-- The character shows as it is, or by one of the escapes that can be read. -/
def ShowsReadably (c : Char) : Prop := quotedChar c = [c] ∨ quotedChar c ∈ readableEscapes

instance (c : Char) : Decidable (ShowsReadably c) := inferInstanceAs (Decidable (_ ∨ _))

theorem quoted_char_escapes {c : Char} (shows : ShowsReadably c) {raw text : List Char}
    (after : Escapes '"' raw text) : Escapes '"' (quotedChar c ++ raw) (c :: text) := by
  rcases shows with itself | escaped
  · have unmarked : c ≠ '"' := by
      rintro rfl
      exact absurd itself (by decide)
    have unescaped : c ≠ '\\' := by
      rintro rfl
      exact absurd itself (by decide)
    rw [itself]
    exact .plain unmarked unescaped after
  · unfold quotedChar at escaped ⊢
    split at escaped
    · exact absurd escaped (by decide)
    · exact @Escapes.escape '"' 't' raw text (by decide) after
    · exact @Escapes.escape '"' 'r' raw text (by decide) after
    · exact @Escapes.escape '"' 'n' raw text (by decide) after
    · exact @Escapes.escape '"' '"' raw text (by decide) after
    · exact @Escapes.escape '"' '\\' raw text (by decide) after
    · split at escaped
      · simp [readableEscapes] at escaped
      · simp [readableEscapes] at escaped

theorem quoted_escapes {s : String} (shows : ∀ c ∈ s.toList, ShowsReadably c) :
    Escapes '"' (s.toList.flatMap quotedChar) s.toList :=
  escapes_flat_map s.toList fun c member _ _ after => quoted_char_escapes (shows c member) after

end Text

/-- The values without reals whose keys are identifiers and whose strings show readably. -/
inductive Value.Readable : Value → Prop where
  | undefined : Readable .undefined
  | null : Readable .null
  | bool (value : Bool) : Readable (.bool value)
  | integer (value : Int64) : Readable (.integer value)
  | string {value : String} (shows : ∀ c ∈ value.toList, Text.ShowsReadably c) :
      Readable (.string value)
  | tuple {items : List Value} (all : ∀ item ∈ items, Readable item) : Readable (.tuple items)
  | array {items : List Value} (all : ∀ item ∈ items, Readable item) : Readable (.array items)
  | object {members : List (String × Value)}
      (keys : ∀ member ∈ members, IsIdentifier member.1 ∧ member.1 ∉ keywords)
      (all : ∀ member ∈ members, Readable member.2) : Readable (.object members)

theorem items_spell {items : List Value}
    (each : ∀ item ∈ items, Spells item.nestedText.toList item) :
    SpellsItems (Value.itemsText items).toList items := by
  induction items with
  | nil => exact nothing_spells_items
  | cons item rest induction =>
      have first := each item List.mem_cons_self
      have others := induction fun other member => each other (List.mem_cons_of_mem _ member)
      cases rest with
      | nil =>
          rw [Value.itemsText]
          exact last_item_spells first
      | cons next remaining =>
          rw [Value.itemsText, String.toList_append, String.toList_append, List.append_assoc]
          · exact next_item_spells first others
          · exact List.cons_ne_nil next remaining

theorem members_spell {members : List (String × Value)}
    (keys : ∀ member ∈ members, IsIdentifier member.1 ∧ member.1 ∉ keywords)
    (each : ∀ member ∈ members, Spells member.2.nestedText.toList member.2) :
    SpellsMembers (Value.membersText members).toList members := by
  induction members with
  | nil => exact ⟨.nil, [], [], empty_splits, .nil, fun _ => rfl⟩
  | cons member rest induction =>
      obtain ⟨key, value⟩ := member
      obtain ⟨identifier, free⟩ := keys (key, value) List.mem_cons_self
      have first := each (key, value) List.mem_cons_self
      have others := induction (fun other member => keys other (List.mem_cons_of_mem _ member))
        fun other member => each other (List.mem_cons_of_mem _ member)
      cases rest with
      | nil =>
          rw [Value.membersText, String.toList_append, String.toList_append, List.append_assoc]
          exact last_member_spells identifier free first
      | cons next remaining =>
          have spells := next_member_spells identifier free first others
          rw [Value.membersText]
          · simp only [String.toList_append]
            simpa using spells
          · exact List.cons_ne_nil next remaining

theorem tuple_text (items : List Value) : (Value.tuple items).nestedText.toList =
    Bracket.round.opener :: (Value.itemsText items).toList ++ [Bracket.round.closer] := by
  rw [Value.nestedText]
  simp [Bracket.opener, Bracket.closer]

theorem array_text (items : List Value) : (Value.array items).nestedText.toList =
    Bracket.square.opener :: (Value.itemsText items).toList ++ [Bracket.square.closer] := by
  rw [Value.nestedText]
  simp [Bracket.opener, Bracket.closer]

theorem object_text (members : List (String × Value)) : (Value.object members).nestedText.toList =
    Bracket.curly.opener :: (Value.membersText members).toList ++ [Bracket.curly.closer] := by
  rw [Value.nestedText]
  simp [Bracket.opener, Bracket.closer]

theorem readable_spells {value : Value} (readable : value.Readable) :
    Spells value.nestedText.toList value := by
  induction readable with
  | undefined =>
      rw [Value.nestedText]
      exact keyword_spells (by decide) rfl fun _ => by rw [Literal.value]
  | null =>
      rw [Value.nestedText]
      exact keyword_spells (by decide) rfl fun _ => by rw [Literal.value]
  | bool value =>
      cases value <;> rw [Value.nestedText] <;>
        exact keyword_spells (by decide) rfl fun _ => by rw [Literal.value]
  | integer value =>
      rw [Value.nestedText]
      exact integer_spells value
  | string shows =>
      rw [Value.nestedText, Text.quoted, String.toList_ofList]
      exact @quoted_spells .double _ _ (Text.quoted_escapes shows)
  | tuple all induction =>
      rw [tuple_text]
      exact composes_spells (.tuple (items_spell induction))
  | array all induction =>
      rw [array_text]
      exact composes_spells (.array (items_spell induction))
  | object keys all induction =>
      rw [object_text]
      exact composes_spells (.object (members_spell keys induction))

def Value.isComposite : Value → Bool
  | .tuple _ | .array _ | .object _ => true
  | _ => false

theorem readable_composes {value : Value} (composite : value.isComposite = true)
    (readable : value.Readable) : ∃ b inside,
      value.text.toList = b.opener :: inside ++ [b.closer] ∧ Composes b inside value := by
  cases readable with
  | @tuple items all =>
      have spell := items_spell fun item member => readable_spells (all item member)
      exact ⟨.round, _, tuple_text items, .tuple spell⟩
  | @array items all =>
      have spell := items_spell fun item member => readable_spells (all item member)
      exact ⟨.square, _, array_text items, .array spell⟩
  | @object members keys all =>
      have spell := members_spell keys fun member found => readable_spells (all member found)
      exact ⟨.curly, _, object_text members, .object spell⟩
  | _ => cases composite

section Lines

variable {inside : List Char}

theorem delimited_pulls {e : Enclosure} (body : e.Body inside) :
    Scanner.pullsOf (String.ofList (e.opener :: inside ++ [e.closer])) =
      [⟨.ok ⟨.capture e.shape e.closer (String.ofList inside), 0⟩, 0⟩] := by
  have opened := @Scanner.opening_pulls .start rfl e 0 (inside ++ [e.closer])
  have closed := Scanner.closed_pulls e 0 (0 + e.opener.utf8Size) body []
  rw [Scanner.pullsOf, String.toList_ofList]
  exact opened.trans closed

theorem delimited_evaluates {e : Enclosure} (body : e.Body inside) (env : Environment) :
    evaluate env (String.ofList (e.opener :: inside ++ [e.closer])) =
      ⟨(env.valueOf e.shape (String.ofList inside) 0).map fun value =>
        .completed [.literal value], none, env⟩ := by
  rw [evaluate, delimited_pulls body]
  cases reads : env.valueOf e.shape (String.ofList inside) 0 with
  | ok value =>
      simp only [Evaluation.consume, Pending.push, Token.resolve, reads, Pending.reduce,
        Pending.finish, Pending.tokens, List.reverse_singleton, List.map_singleton, Except.map]
  | error fault => simp only [Evaluation.consume, Pending.push, Token.resolve, reads, Except.map]

theorem enclosed_evaluates {b : Bracket} (balanced : Balanced inside) {env : Environment}
    {value : Value} (reads : env.valueOf b.shape (String.ofList inside) 0 = .ok value) :
    evaluate env (String.ofList (b.opener :: inside ++ [b.closer])) =
      ⟨.ok (.completed [.literal value]), none, env⟩ := by
  have evaluated := @delimited_evaluates inside (.bracket b) balanced env
  rw [Enclosure.shape, reads] at evaluated
  exact evaluated

end Lines

/-- The text of a readable composite value is a line that completes with the value, in every
session and whatever names are bound; nothing is called and nothing bound. -/
theorem printed_value_reads_back (s : Session) (value : Value)
    (composite : value.isComposite = true) (readable : value.Readable) :
    (s.run value.text).1 = ⟨.ok (.completed [.literal value]), none, s.environment⟩ := by
  obtain ⟨b, inside, written, composes⟩ := readable_composes composite readable
  have text : value.text = String.ofList (b.opener :: inside ++ [b.closer]) := by
    rw [← written, String.ofList_toList]
  rw [text]
  exact enclosed_evaluates (composes_balanced composes) (composes_value composes s.environment 0)

theorem printed_value_reads_back_with_escapes :
    let value : Value := .object [("key_1", .array [.integer Int64.minValue,
      .string "\"]\\;\n'é", .tuple [], .undefined])]
    value.isComposite = true ∧ value.Readable ∧ (Session.initial.run value.text).1 =
      ⟨.ok (.completed [.literal value]), none, Session.initial.environment⟩ := by
  intro value
  have all : "\"]\\;\n'é".toList.all (fun c => decide (Text.ShowsReadably c)) = true := by
    decide
  have shows : ∀ c ∈ "\"]\\;\n'é".toList, Text.ShowsReadably c := fun c member =>
    of_decide_eq_true (List.all_eq_true.mp all c member)
  have items : (Value.array [.integer Int64.minValue, .string "\"]\\;\n'é", .tuple [],
      .undefined]).Readable := by
    apply Value.Readable.array
    simp only [List.forall_mem_cons]
    exact ⟨.integer _, .string shows, .tuple (by simp), .undefined, by simp⟩
  have key : IsIdentifier "key_1" :=
    ⟨'k', "ey_1".toList, by decide, by decide, List.all_eq_true.mp (by decide)⟩
  have readable : value.Readable := by
    apply Value.Readable.object
    · simp only [List.forall_mem_cons]
      exact ⟨⟨key, by decide⟩, by simp⟩
    · simp only [List.forall_mem_cons]
      exact ⟨items, by simp⟩
  exact ⟨rfl, readable, printed_value_reads_back Session.initial value rfl readable⟩

end LineShell
