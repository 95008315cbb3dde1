import LineShell.Proofs.Pushing

/-!
Where the references of a line come from. Reducing a line never makes up an entry: a reference is
what its name is bound to, or an entry that some bound entry leads to over its members. Main
statement: if this holds of the tokens so far, it holds of them after one more.
-/

namespace LineShell

namespace Text

theorem drop_while_unblank {cs : List Char} (unblank : ∀ c, cs.head? = some c → isBlank c = false) :
    cs.dropWhile isBlank = cs := by
  cases cs with
  | nil => rfl
  | cons c rest => rw [List.dropWhile_cons, unblank c rfl, if_neg Bool.false_ne_true]

theorem dropped_unblank (cs : List Char) (c : Char)
    (first : (cs.dropWhile isBlank).head? = some c) : isBlank c = false := by
  have unblank := List.head?_dropWhile_not isBlank cs
  rw [first] at unblank
  exact unblank

theorem trim_chars_trimmed (cs : List Char) : trimChars (trimChars cs) = trimChars cs := by
  have split := @List.takeWhile_append_dropWhile _ isBlank (cs.dropWhile isBlank).reverse
  have front : (trimChars cs).dropWhile isBlank = trimChars cs := by
    apply drop_while_unblank
    intro c first
    rw [trimChars] at first
    apply dropped_unblank cs c
    rw [← List.reverse_reverse (cs.dropWhile isBlank), ← split, List.reverse_append,
      List.head?_append, first, Option.some_or]
  have back : (trimChars cs).reverse.dropWhile isBlank = (trimChars cs).reverse := by
    rw [trimChars, List.reverse_reverse]
    exact drop_while_unblank (dropped_unblank _)
  rw [trimChars, front, back, List.reverse_reverse]

theorem trim_trimmed (s : String) : trim (trim s) = trim s := by
  rw [trim, trim, String.toList_ofList, trim_chars_trimmed]

end Text

/-- The entries of an environment: those that names are bound to, and those nested in them. -/
inductive Environment.Holds (env : Environment) : Shared → Prop where
  | bound {name : String} {shared : Shared} (found : env.bindings.get? name = some shared) :
      Holds env shared
  | nested {shared : Shared} {name : String} {entry : Entry} (holds : Holds env shared)
      (member : shared.entry.member? name = some (.entry entry)) :
      Holds env ⟨⟨shared.identity.serial, shared.identity.path ++ [name]⟩, entry⟩

/-- A reference by name has the entry that the name is bound to, any other an entry of the
environment. -/
def Token.Grounded (env : Environment) : Token → Prop
  | .reference name shared .environment =>
    Text.trim name = name ∧ env.bindings.get? name = some shared
  | .reference _ shared .member => env.Holds shared
  | _ => True

def Pending.Grounded (env : Environment) (pending : Pending) : Prop :=
  ∀ token ∈ pending, token.item.Grounded env

section Grounded

variable {env : Environment}

theorem reference_holds {name : String} {shared : Shared} {binding : Binding}
    (grounded : (Token.reference name shared binding).Grounded env) : env.Holds shared := by
  cases binding with
  | environment => exact .bound grounded.2
  | member => exact grounded

theorem bare_name_trimmed {token : Token} {name : String} (grounded : token.Grounded env)
    (named : token.bareName? = some name) : Text.trim name = name := by
  cases token with
  | lexeme lexeme =>
      cases lexeme with
      | name text =>
          cases named
          exact Text.trim_trimmed text
      | space | capture | operator => cases named
  | reference other shared binding =>
      cases binding with
      | environment =>
          cases named
          exact grounded.1
      | member => cases named
  | function | literal => cases named

theorem resolved_grounded {token resolved : Token} {position : Nat}
    (grounded : token.Grounded env) (resolves : token.resolve env position = .ok resolved) :
    resolved.Grounded env := by
  unfold Token.resolve at resolves
  split at resolves
  · rename_i text
    dsimp only at resolves
    split at resolves
    · cases resolves
      trivial
    · split at resolves
      · rename_i shared bound
        cases resolves
        refine ⟨Text.trim_trimmed text, ?_⟩
        rw [← Text.trim_trimmed text]
        exact bound
      · cases resolves
        trivial
  · split at resolves
    · cases resolves
      trivial
    · cases resolves
  · cases resolves
    exact grounded

theorem member_grounded {receiver : Located Token} {name : String} {position : Nat} {token : Token}
    (grounded : receiver.item.Grounded env)
    (found : Token.member receiver name position = .ok token) : token.Grounded env := by
  obtain ⟨item, origin⟩ := receiver
  unfold Token.member at found
  cases item with
  | lexeme lexeme => cases lexeme <;> cases found
  | function => cases found
  | literal value =>
      dsimp only at found
      split at found
      · cases found
        trivial
      · cases found
  | reference receiverName shared binding =>
      dsimp only at found
      split at found
      · rename_i nested member
        cases found
        exact .nested (reference_holds grounded) member
      · cases found
        trivial
      · split at found
        · cases found
          trivial
        · cases found

theorem folded_grounded {receiver last folded : Located Token}
    (grounded : receiver.item.Grounded env) (folds : Pending.fold receiver last = .ok folded) :
    folded.item.Grounded env := by
  unfold Pending.fold at folds
  split at folds
  · cases folds
  · rename_i name _
    cases found : Token.member receiver name last.position with
    | error e =>
        rw [found] at folds
        cases folds
    | ok token =>
        rw [found] at folds
        cases folds
        exact member_grounded grounded found

theorem pushed_grounded {pending : Pending} {token : Token} (grounded : pending.Grounded env)
    (groundedToken : token.Grounded env) (position : Nat) :
    (pending.push env token position).pending.Grounded env := by
  have pushes := Pending.push_pushes env pending ⟨token, position⟩
  dsimp only at pushes
  generalize pending.push env token position = pushed at pushes
  have onTop {resolved : Token} (resolves : token.resolve env position = .ok resolved) :
      Pending.Grounded env (⟨resolved, position⟩ :: pending) :=
    List.forall_mem_cons.mpr ⟨resolved_grounded groundedToken resolves, grounded⟩
  cases pushes with
  | unresolved => exact List.forall_mem_cons.mpr ⟨groundedToken, grounded⟩
  | called resolves | unfolded resolves | kept resolves => exact onTop resolves
  | folded _ dotted folds =>
      subst dotted
      have receives := grounded _ (List.mem_cons_of_mem _ List.mem_cons_self)
      refine List.forall_mem_cons.mpr ⟨folded_grounded receives folds, ?_⟩
      intro other member
      exact grounded other (List.mem_cons_of_mem _ (List.mem_cons_of_mem _ member))

end Grounded
end LineShell
