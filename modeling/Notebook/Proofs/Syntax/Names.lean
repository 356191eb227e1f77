import Notebook.Guest.Check
import Notebook.Proofs.Syntax.Cut
import Notebook.Proofs.Syntax.Statements

/-!
# Names that a program can declare

A statement that is read declares no name that starts with a dollar sign or has a space in it
(`parseUnit_declares`): a name is a word of the text.  Names with a dollar sign are left for values that nobody
has named, and names with a space for what is imported.

What is read before a name does not matter here, since a reader only takes tokens from the front.
-/

namespace Notebook.Syntax
open Notebook.Text Notebook.Guest

/-- A name that no program can give to anything. -/
def IsMadeUp (name : String) : Prop := name.toList.head? = some '$'

/-- A name that a program can give: it is not made up, and it has no space in it. -/
structure IsWord (name : String) : Prop where
  notMadeUp : ¬ IsMadeUp name
  unspaced : ' ' ∉ name.toList

/-! ## Words -/

/-- A token that is no word, or one that can be a name. -/
def TokenTree.Plain (t : TokenTree) : Prop := ∀ w s, t = .word w s → IsWord w

/-- A text that an identifier can go on with is a word if it does not start with a dollar sign. -/
theorem isWord_ofList {cs : List Char} (hhead : cs.head? ≠ some '$') (hspace : ' ' ∉ cs) :
    IsWord (String.ofList cs) := by
  refine ⟨?_, ?_⟩
  · unfold IsMadeUp
    rw [String.toList_ofList]
    exact hhead
  · rw [String.toList_ofList]
    exact hspace

/-- No identifier starts with a dollar sign, and none has a space in it. -/
theorem of_identifierLength? {cs : List Char} {n : Nat} (h : identifierLength? cs = some n) :
    (cs.take n).head? ≠ some '$' ∧ ' ' ∉ cs.take n := by
  cases cs with
  | nil => cases h
  | cons c cs =>
    unfold identifierLength? at h
    dsimp only at h
    split at h
    · rename_i hstart
      obtain rfl := Option.some.inj h
      have hne (d : Char) (hd : isIdentifierStart d = false) : c ≠ d := by
        rintro rfl
        rw [hd] at hstart
        cases hstart
      have hrest : cs.take (cs.takeWhile isIdentifierContinue).length = cs.takeWhile isIdentifierContinue :=
        List.prefix_iff_eq_take.1 (List.takeWhile_prefix _) |>.symm
      rw [Nat.add_comm, List.take_succ_cons, hrest, List.head?_cons, List.mem_cons, not_or]
      refine ⟨fun heq => hne '$' (by decide +kernel) (Option.some.inj heq),
        (hne ' ' (by decide +kernel)).symm, fun hmem => ?_⟩
      have hcontinue : isIdentifierContinue ' ' = true := List.all_eq_true.1 List.all_takeWhile _ hmem
      exact absurd hcontinue (by decide +kernel)
    · cases h

/-- What is taken for a word can be a name. -/
theorem isWord_word {cs : List Char} {n : Nat} (h : wordLength? cs = some n) :
    IsWord (String.ofList (cs.take n)) := by
  unfold wordLength? at h
  split at h
  · rename_i hraw
    -- a raw word starts with its mark
    obtain ⟨rest, rfl⟩ : "r#".toList <+: cs := List.isPrefixOf_iff_prefix.1 hraw
    split at h
    · cases h
    · rename_i m hm
      split at h
      · cases h
      · obtain rfl := Option.some.inj h
        obtain ⟨-, hspace⟩ := of_identifierLength? hm
        have htake : ("r#".toList ++ rest).take (m + 2) = 'r' :: '#' :: rest.take m := rfl
        rw [htake]
        refine isWord_ofList (by rw [List.head?_cons]; decide) ?_
        rw [List.mem_cons, List.mem_cons, not_or, not_or]
        exact ⟨by decide, by decide, hspace⟩
  · obtain ⟨hhead, hspace⟩ := of_identifierLength? h
    exact isWord_ofList hhead hspace

theorem plain_leaf {cs : List Char} {n : Nat} {token : Span → TokenTree} (h : leaf? cs = some (n, token))
    (s : Span) : (token s).Plain := by
  intro w s' hword
  cases leaf?_eq_some_iff.1 h with
  | literal => cases hword
  | quote => cases hword
  | sign => cases hword
  | mark => cases hword
  | word _ _ _ _ hlength =>
    cases hword
    exact isWord_word hlength

theorem plain_docComment (d : DocComment) (s : Span) : ∀ t ∈ d.trees s, t.Plain := by
  intro t ht w s' hword
  subst hword
  unfold DocComment.trees at ht
  split at ht <;> simp at ht

/-- The words of a text are names that a program can give. This is said of the trees that are not inside of
groups, also of those that stand before a group that is still open. -/
theorem plain_lexFrom {p : Position} {stack : List OpenGroup} {trees : List TokenTree} {cs : List Char}
    (htrees : ∀ t ∈ trees, t.Plain) (hstack : ∀ g ∈ stack, ∀ t ∈ g.before, t.Plain)
    {result : List TokenTree} (h : lexFrom p stack trees cs = .ok result) : ∀ t ∈ result, t.Plain := by
  fun_induction lexFrom p stack trees cs with
  | case1 p trees cs =>
    cases h
    exact fun t ht => htrees t (List.mem_reverse.1 ht)
  | case2 => cases h
  | case3 p stack trees cs c rest hrest _ start d hd stop ih =>
    refine ih (fun t ht => ?_) hstack h
    rcases List.mem_append.1 ht with ht | ht
    · exact plain_docComment d _ t (List.mem_reverse.1 ht)
    · exact htrees t ht
  | case4 p stack trees cs c rest hrest _ start hdoc d hd ih =>
    -- what stands before the group is put aside
    exact ih (fun t ht => absurd ht List.not_mem_nil) (List.forall_mem_cons.2 ⟨htrees, hstack⟩) h
  | case5 p trees cs c rest hrest _ start failed => simp [failed] at h
  | case6 p trees cs c rest hrest _ start failed => simp [failed] at h
  | case7 p trees cs c rest hrest _ start hdoc hopen d hd g stack hg stop ih =>
    obtain ⟨hbefore, hstack⟩ := List.forall_mem_cons.1 hstack
    have hbody : trees.attach.reverse.unattach = trees.reverse := by simp
    rw [hbody] at ih
    refine ih (List.forall_mem_cons.2 ⟨?_, hbefore⟩) hstack h
    -- a group is no word, whatever stands in it
    exact fun w s hword => TokenTree.noConfusion hword
  | case8 p stack trees cs c rest hrest _ start failed => simp [failed] at h
  | case9 p stack trees cs c rest hrest _ start hdoc hopen hclose n token hleaf stop ih =>
    exact ih (List.forall_mem_cons.2 ⟨plain_leaf hleaf _, htrees⟩) hstack h

theorem plain_lex {cs : List Char} {result : List TokenTree} (h : lex cs = .ok result) :
    ∀ t ∈ result, t.Plain := by
  have hnone : ∀ t ∈ ([] : List TokenTree), t.Plain := fun t ht => absurd ht List.not_mem_nil
  have hclosed : ∀ g ∈ ([] : List OpenGroup), ∀ t ∈ g.before, t.Plain :=
    fun g hg => absurd hg List.not_mem_nil
  unfold lex at h
  split at h <;> exact plain_lexFrom hnone hclosed h

/-! ## What readers give -/

/-- Read from tokens whose words can be names, the value has the property. -/
def Parse.Gives {α : Type} (p : Parse α) (Q : α → Prop) : Prop :=
  ∀ now after a, (∀ t ∈ now.rest, t.Plain) → p.run now = .ok (a, after) → Q a

section Gives

variable {α β γ : Type} {Q : α → Prop} {R : β → Prop}

theorem Parse.gives_pure {a : α} (h : Q a) : (pure a : Parse α).Gives Q := by
  intro now after b _ hrun
  cases hrun
  exact h

theorem Parse.ext {p q : Parse α} (h : ∀ now, p.run now = q.run now) : p = q := by
  obtain ⟨run, _⟩ := p
  obtain ⟨run', _⟩ := q
  obtain rfl : run = run' := funext h
  rfl

theorem Parse.run_bind_eq (p : Parse α) (f : α → Parse β) (now : Input) :
    (p >>= f).run now = match p.run now with
      | .ok (a, after) => (f a).run after
      | .error e => .error e := rfl

theorem Parse.run_bind {p : Parse α} {f : α → Parse β} {now after : Input} {b : β}
    (h : (p >>= f).run now = .ok (b, after)) :
    ∃ a middle, p.run now = .ok (a, middle) ∧ (f a).run middle = .ok (b, after) := by
  change (p.bind f).run now = _ at h
  unfold Parse.bind at h
  dsimp only at h
  split at h
  · rename_i a middle hfirst
    exact ⟨a, middle, hfirst, h⟩
  · cases h

theorem run_afresh_eq_ok {p : Parse α} {now after : Input} {a : α} (h : (afresh p).run now = .ok (a, after)) :
    ∃ behind, p.run { rest := now.rest, scope := now.scope } = .ok (a, behind) ∧
      after = { behind with
        scope := now.scope
        printed := behind.printed ++ now.printed
        last := if behind.rest.length < now.rest.length then behind.last else now.last
        leftover := now.leftover <|> behind.leftover } := by
  unfold afresh at h
  dsimp only at h
  split at h
  · cases h
  · rename_i value behind hp
    cases h
    exact ⟨behind, hp, rfl⟩

theorem Parse.gives_bind {p : Parse α} {f : α → Parse β} (hp : p.Gives Q)
    (hf : ∀ a, Q a → (f a).Gives R) : (p >>= f).Gives R := by
  intro now after b hnow hrun
  obtain ⟨a, middle, hfirst, hrun⟩ := Parse.run_bind hrun
  -- what is left has no other words than what there was
  have hmiddle (t : TokenTree) (ht : t ∈ middle.rest) : t.Plain :=
    hnow t ((p.suffix hfirst).subset ht)
  exact hf a (hp now middle a hnow hfirst) middle after b hmiddle hrun

/-- What comes first does not matter. -/
theorem Parse.gives_then {p : Parse α} {f : α → Parse β} (hf : ∀ a, (f a).Gives R) :
    (p >>= f).Gives R := by
  have hp : p.Gives fun _ => True := fun _ _ _ _ _ => trivial
  exact Parse.gives_bind hp fun a _ => hf a

theorem Parse.gives_input {f : Input → Parse β}
    (hf : ∀ now : Input, (∀ t ∈ now.rest, t.Plain) → (f now).Gives R) : (input >>= f).Gives R := by
  have hinput : input.Gives fun now => ∀ t ∈ now.rest, t.Plain := by
    intro now after b hnow hrun
    cases hrun
    exact hnow
  exact Parse.gives_bind hinput hf

theorem Parse.gives_ite {c : Prop} [Decidable c] {p q : Parse α} (hp : p.Gives Q) (hq : q.Gives Q) :
    (if c then p else q).Gives Q := by
  split
  · exact hp
  · exact hq

theorem Parse.gives_fail (e : ParseError) : (Parse.fail e : Parse α).Gives Q := by
  intro now after a _ hrun
  cases hrun

theorem Parse.gives_failWith (problem : Bool → Problem) : (failWith problem : Parse α).Gives Q := by
  refine Parse.gives_then fun now => ?_
  split <;> exact Parse.gives_fail _

/-- What holds of every state that a repetition goes through, and of what it ends with. -/
theorem Parse.gives_iterate {σ : Type} {J : σ → Prop} {s : σ} {step : σ → Parse (σ ⊕ α)} (hs : J s)
    (hstep : ∀ s, J s → (step s).Gives fun next => match next with | .inl s => J s | .inr a => Q a) :
    (iterate s step).Gives Q := by
  have hfor (n : Nat) (s : σ) (hs : J s) : (iterateFor step n s).Gives Q := by
    induction n generalizing s with
    | zero => exact Parse.gives_failWith _
    | succ n ih =>
      refine Parse.gives_bind (hstep s hs) fun next hnext => ?_
      cases next with
      | inl s => exact ih s hnext
      | inr a => exact Parse.gives_pure hnext
  exact Parse.gives_then fun now => hfor _ s hs

end Gives

/-! ## Statements -/

theorem gives_anyWord : anyWord.Gives fun i => IsWord i.name := by
  refine Parse.gives_input fun now hnow => ?_
  split
  · rename_i w s rest hrest
    have hword : IsWord w := hnow _ (by rw [hrest]; exact List.mem_cons_self) w s rfl
    exact Parse.gives_then fun _ => Parse.gives_then fun _ => Parse.gives_pure hword
  · exact Parse.gives_failWith _

theorem gives_ident : ident.Gives fun i => IsWord i.name := by
  refine Parse.gives_then fun now => ?_
  split
  · split
    · exact Parse.gives_failWith _
    · exact gives_anyWord
  · exact Parse.gives_failWith _

/-- The pattern binds nothing but words. -/
def Pattern.Plain (p : Pattern) : Prop := ∀ name type, bindingOf p = .ok (name, type) → IsWord name

/-- The item declares nothing but words. -/
def Item.Plain : Item → Prop
  | .constant name _ _ => IsWord name
  | .function header _ => IsWord header.name
  | .struct decl => IsWord decl.name
  | .imports _ | .other => True

/-- The statement declares nothing but words. -/
def Stmt.Plain : Stmt → Prop
  | .bind p _ _ _ => p.Plain
  | .item i _ => i.Plain
  | .expr .. => True

theorem Pattern.plain_other (s : Span) : (Pattern.other s).Plain := by
  intro name type h
  cases h

theorem Pattern.plain_typed {p : Pattern} (hp : p.Plain) (t : TypeExpr) : (Pattern.typed p t).Plain := by
  intro name type h
  unfold bindingOf at h
  split at h
  · rename_i n t' hinner
    cases h
    exact hp _ _ hinner
  · cases h

theorem gives_plainPattern (start : Span) :
    (do return plainPattern (← spanFrom start) : Parse ReadPattern).Gives fun p => p.pattern.Plain :=
  Parse.gives_then fun _ => Parse.gives_pure (Pattern.plain_other _)

theorem gives_rangeAfterStart (g : Grammar) (start : Span) :
    (rangeAfterStart g start).Gives fun p => p.pattern.Plain := by
  have hend (dots : Option Span) :
      Parse.Gives (do return ⟨.other (← spanFrom start), dots⟩) fun p : ReadPattern => p.pattern.Plain :=
    Parse.gives_then fun _ => Parse.gives_pure (Pattern.plain_other _)
  refine Parse.gives_then fun dots => Parse.gives_then fun bounded => ?_
  exact Parse.gives_ite (Parse.gives_then fun _ => hend _) (hend _)

theorem gives_pathPattern (g : Grammar) : (pathPattern g).Gives fun p => p.pattern.Plain := by
  refine Parse.gives_then fun start => ?_
  have hend := gives_plainPattern start
  -- after the path come a macro's tokens, fields, the dots of a range, or nothing
  refine Parse.gives_then fun p => Parse.gives_then fun _ => Parse.gives_then fun _ => ?_
  refine Parse.gives_ite (Parse.gives_then fun _ => Parse.gives_then fun _ => hend) ?_
  refine Parse.gives_then fun _ => Parse.gives_ite (Parse.gives_then fun _ => hend) ?_
  refine Parse.gives_then fun _ => Parse.gives_ite (Parse.gives_then fun _ => hend) ?_
  exact Parse.gives_then fun _ => Parse.gives_ite (gives_rangeAfterStart g start) hend

theorem gives_namePattern (g : Grammar) : (namePattern g).Gives fun p => p.pattern.Plain := by
  refine Parse.gives_then fun start => Parse.gives_then fun _ => Parse.gives_then fun _ =>
    Parse.gives_then fun _ => ?_
  have hrest (name : Ident) (hname : IsWord name.name) :
      Parse.Gives (do
        if ← punct? "@" then
          discard g.pattern
          return plainPattern (← spanFrom start)
        else return ⟨.name name.name, none⟩) fun p => p.pattern.Plain := by
    refine Parse.gives_then fun _ => Parse.gives_ite ?_ (Parse.gives_pure fun n t h => ?_)
    · exact Parse.gives_then fun _ => gives_plainPattern start
    · -- this is the one pattern that binds a name
      cases h
      exact hname
  exact Parse.gives_ite (Parse.gives_bind gives_anyWord hrest) (Parse.gives_bind gives_ident hrest)

theorem gives_patternRule (g : Grammar) : (patternRule g).Gives fun p => p.pattern.Plain := by
  refine Parse.gives_then fun start => Parse.gives_then fun now => Parse.gives_then fun goesOn => ?_
  have hend := gives_plainPattern start
  -- a path, an underscore, a box
  refine Parse.gives_ite (gives_pathPattern g) ?_
  refine Parse.gives_ite (Parse.gives_then fun _ => hend) ?_
  refine Parse.gives_ite (Parse.gives_then fun _ => Parse.gives_then fun _ => hend) ?_
  -- a literal, or a range that starts with one
  refine Parse.gives_ite (Parse.gives_then fun _ => Parse.gives_then fun _ =>
    Parse.gives_ite (gives_rangeAfterStart g start) hend) ?_
  refine Parse.gives_ite (gives_namePattern g) ?_
  -- a reference, a tuple, a slice
  refine Parse.gives_ite (Parse.gives_then fun _ => Parse.gives_then fun _ =>
    Parse.gives_then fun _ => hend) ?_
  refine Parse.gives_ite (Parse.gives_then fun _ => hend) ?_
  refine Parse.gives_ite (Parse.gives_then fun _ => hend) ?_
  -- a range without a start
  refine Parse.gives_ite (Parse.gives_then fun dots => Parse.gives_then fun bounded => ?_)
    (Parse.gives_failWith _)
  refine Parse.gives_ite (Parse.gives_then fun _ => Parse.gives_pure (Pattern.plain_other _)) ?_
  exact Parse.gives_ite (Parse.gives_failWith _) hend

/-- The patterns of a grammar bind nothing but words. -/
def Grammar.Plain (g : Grammar) : Prop := g.pattern.Gives fun p => p.pattern.Plain

theorem Grammar.plain_grammar (n : Nat) : (grammar n).Plain := by
  cases n with
  | zero =>
    change (failWith fun _ => .unexpected none).Gives _
    exact Parse.gives_failWith _
  | succ n => exact gives_patternRule (grammar n)

theorem gives_letStmt {g : Grammar} (hg : g.Plain) (start : Span) : (letStmt g start).Gives Stmt.Plain := by
  refine Parse.gives_then fun keyword => Parse.gives_then fun _ => Parse.gives_bind hg fun p hp => ?_
  have hend (pattern : Pattern) (hplain : pattern.Plain) (value : Option Expr) :
      Parse.Gives (do
        punct ";"
        return .bind pattern value keyword (← spanFrom start)) Stmt.Plain :=
    Parse.gives_then fun _ => Parse.gives_then fun _ => Parse.gives_pure hplain
  have hvalue (pattern : Pattern) (hplain : pattern.Plain) :
      Parse.Gives (do
        let value ← if ← punct? "=" then
            let e ← g.expr true
            if !(← input).braced then
              if ← word? "else" then discard (block g)
            pure (some e)
          else pure none
        punct ";"
        return .bind pattern value keyword (← spanFrom start)) Stmt.Plain := by
    refine Parse.gives_then fun _ => Parse.gives_ite ?_ (Parse.gives_then fun _ => hend pattern hplain _)
    refine Parse.gives_then fun e => Parse.gives_then fun _ => ?_
    have hafter := Parse.gives_then (p := pure (some e)) fun value => hend pattern hplain value
    -- with a value there may be a block for the case that the pattern does not match
    refine Parse.gives_ite (Parse.gives_then fun _ => ?_) hafter
    exact Parse.gives_ite (Parse.gives_then fun _ => hafter) hafter
  refine Parse.gives_then fun _ => Parse.gives_ite (Parse.gives_then fun t => ?_) ?_
  · exact Parse.gives_bind (Parse.gives_pure (Pattern.plain_typed hp t)) hvalue
  · exact Parse.gives_bind (Parse.gives_pure hp) hvalue

theorem gives_signature (g : Grammar) (safe : Bool) :
    (signature g safe).Gives fun h => IsWord h.name := by
  -- the keyword, then the name, then the rest
  have hname : Parse.Gives (do
      word "fn"
      let name ← ident
      let generics ← generics g
      let params ← params g
      let result ← if ← punct? "->" then some <$> typeExpr g true else pure none
      discard (whereClause g)
      return ⟨[], name.name, generics, params, result⟩) fun h : FnHeader => IsWord h.name := by
    refine Parse.gives_then fun _ => Parse.gives_bind gives_ident fun name hname => ?_
    refine Parse.gives_then fun generics => Parse.gives_then fun params => Parse.gives_then fun _ => ?_
    have hend (result : Option TypeExpr) : Parse.Gives (do
        discard (whereClause g)
        return ⟨[], name.name, generics, params, result⟩) fun h : FnHeader => IsWord h.name :=
      Parse.gives_then fun _ => Parse.gives_pure hname
    exact Parse.gives_ite (Parse.gives_then fun _ => hend _) (Parse.gives_then fun _ => hend _)
  refine Parse.gives_then fun _ => Parse.gives_then fun _ => Parse.gives_then fun _ => ?_
  refine Parse.gives_then fun _ => Parse.gives_ite (Parse.gives_then fun _ => ?_) hname
  exact Parse.gives_ite (Parse.gives_then fun _ => hname) hname

theorem gives_structDecl (g : Grammar) (docs : List (List Char)) :
    (structDecl g docs).Gives fun d => IsWord d.name := by
  refine Parse.gives_then fun _ => Parse.gives_bind gives_ident fun name hname => ?_
  refine Parse.gives_then fun generics => Parse.gives_then fun conditions => Parse.gives_then fun now => ?_
  have hend (fields : Parse (List Field)) :
      Parse.Gives (do return ⟨documentation docs, name.name, generics, ← fields⟩)
        fun d : StructDecl => IsWord d.name :=
    Parse.gives_then fun _ => Parse.gives_pure hname
  refine Parse.gives_then fun _ => Parse.gives_ite ?_ (Parse.gives_ite (hend _) ?_)
  · -- after fields in parentheses there has to be a semicolon
    refine Parse.gives_then fun fields => Parse.gives_then fun conditions => Parse.gives_then fun _ => ?_
    exact Parse.gives_ite (hend _) (Parse.gives_then fun _ => hend _)
  · exact Parse.gives_ite (hend _) (hend _)

theorem gives_constantItem (g : Grammar) : (constantItem g).Gives Item.Plain := by
  refine Parse.gives_then fun _ => Parse.gives_then fun _ => Parse.gives_then fun _ => ?_
  -- the name is a word, or there is none and the reading fails
  refine Parse.gives_ite (Parse.gives_bind gives_anyWord ?_)
    (Parse.gives_bind (Q := fun name : Ident => IsWord name.name) (Parse.gives_failWith _) ?_)
  all_goals
    refine fun name hname => Parse.gives_then fun parameters => Parse.gives_then fun _ =>
      Parse.gives_then fun _ => Parse.gives_then fun type => Parse.gives_then fun _ => ?_
    -- with a value or with none
    refine Parse.gives_ite (Parse.gives_then fun _ => ?_) (Parse.gives_then fun _ => ?_)
    all_goals
      refine Parse.gives_then fun conditions => Parse.gives_then fun _ => ?_
      split
      · refine Parse.gives_pure ?_
        split
        · trivial
        · exact hname
      · exact Parse.gives_pure trivial

theorem gives_importItem (g : Grammar) : (importItem g).Gives Item.Plain := by
  refine Parse.gives_then fun _ => Parse.gives_then fun _ => Parse.gives_then fun _ =>
    Parse.gives_then fun read => Parse.gives_then fun _ => Parse.gives_pure ?_
  split <;> trivial

theorem gives_itemRest (g : Grammar) (docs : List (List Char)) : (itemRest g docs).Gives Item.Plain := by
  refine Parse.gives_then fun visible => Parse.gives_then fun now => Parse.gives_then fun _ => ?_
  have hother (p : Parse Unit) : Parse.Gives (do p; return .other) Item.Plain :=
    Parse.gives_then fun _ => Parse.gives_pure trivial
  refine Parse.gives_ite (Parse.gives_bind (gives_signature g false) fun header hname => ?_) ?_
  · -- a function
    refine Parse.gives_then fun _ => Parse.gives_ite (Parse.gives_pure trivial) ?_
    exact Parse.gives_then fun body => Parse.gives_pure hname
  refine Parse.gives_ite (hother _) ?_
  refine Parse.gives_ite (gives_importItem g) (Parse.gives_ite (hother _) ?_)
  refine Parse.gives_ite (gives_constantItem g) (Parse.gives_ite ?_ ?_)
  · -- what starts with the word `unsafe` and is no function
    refine Parse.gives_ite (hother _) (Parse.gives_ite (hother _) ?_)
    refine Parse.gives_ite (hother _) (Parse.gives_ite (hother _) ?_)
    exact Parse.gives_then fun _ => Parse.gives_failWith _
  refine Parse.gives_ite (hother _) (Parse.gives_ite (hother _) ?_)
  refine Parse.gives_ite (Parse.gives_bind (gives_structDecl g docs) fun d hname => ?_) ?_
  · exact Parse.gives_pure hname
  refine Parse.gives_ite (hother _) (Parse.gives_ite (hother _) ?_)
  refine Parse.gives_ite (hother _) (Parse.gives_ite (hother _) ?_)
  refine Parse.gives_ite (hother _) (Parse.gives_ite (hother _) ?_)
  exact Parse.gives_ite (hother _) (Parse.gives_failWith _)

theorem gives_macroStmt (g : Grammar) (start : Span) : (macroStmt g start).Gives Stmt.Plain :=
  Parse.gives_then fun _ => Parse.gives_then fun _ => Parse.gives_then fun _ => Parse.gives_then fun _ =>
    Parse.gives_then fun _ => Parse.gives_pure trivial

theorem gives_exprStmt (g : Grammar) (start : Span) : (exprStmt g start).Gives Stmt.Plain :=
  Parse.gives_then fun _ => Parse.gives_then fun _ => Parse.gives_then fun _ => Parse.gives_pure trivial

theorem gives_statement {g : Grammar} (hg : g.Plain) : (statement g).Gives Stmt.Plain := by
  refine Parse.gives_then fun start => Parse.gives_then fun docs => Parse.gives_then fun kind => ?_
  have hrest (kind : MacroStart) : Parse.Gives (do
      let rest := (← input).rest
      if isWord "let" rest then letStmt g start
      else if itemAhead rest || kind = .item then
        let value ← itemRest g docs
        return .item value (← spanFrom start)
      else exprStmt g start) Stmt.Plain := by
    refine Parse.gives_then fun now => Parse.gives_ite (gives_letStmt hg start) ?_
    refine Parse.gives_ite (Parse.gives_bind (gives_itemRest g docs) fun i hi => ?_) (gives_exprStmt g start)
    exact Parse.gives_then fun _ => Parse.gives_pure hi
  cases kind with
  | braces => exact gives_macroStmt g start
  | item => exact hrest .item
  | none => exact hrest .none

theorem gives_afresh {α : Type} {Q : α → Prop} {p : Parse α} (hp : p.Gives Q) : (afresh p).Gives Q := by
  intro now after a hnow hrun
  obtain ⟨behind, hrun, -⟩ := run_afresh_eq_ok hrun
  exact hp { rest := now.rest, scope := now.scope } behind a hnow hrun

theorem gives_stmtsRule {g : Grammar} (hg : g.Plain) :
    (stmtsRule g).Gives fun stmts => ∀ stmt ∈ stmts, stmt.Plain := by
  refine Parse.gives_iterate (J := fun read => ∀ stmt ∈ read, stmt.Plain)
    (fun _ h => absurd h List.not_mem_nil) fun read hread => ?_
  have hreverse {read : List Stmt} (h : ∀ stmt ∈ read, stmt.Plain) :
      ∀ stmt ∈ read.reverse, stmt.Plain := fun stmt hstmt => h stmt (List.mem_reverse.1 hstmt)
  refine Parse.gives_then fun start => Parse.gives_then fun _ => Parse.gives_ite ?_ ?_
  · -- a semicolon by itself declares nothing
    exact Parse.gives_pure (List.forall_mem_cons.2 ⟨trivial, hread⟩)
  refine Parse.gives_then fun _ => Parse.gives_ite (Parse.gives_pure (hreverse hread)) ?_
  refine Parse.gives_bind (gives_afresh (gives_statement hg)) fun s hs => Parse.gives_then fun _ => ?_
  have hcons : ∀ stmt ∈ s :: read, stmt.Plain := List.forall_mem_cons.2 ⟨hs, hread⟩
  refine Parse.gives_ite (Parse.gives_pure (hreverse hcons)) ?_
  exact Parse.gives_ite (Parse.gives_failWith _) (Parse.gives_pure hcons)

theorem gives_stmts (n : Nat) : (grammar n).stmts.Gives fun stmts => ∀ stmt ∈ stmts, stmt.Plain := by
  cases n with
  | zero =>
    change (failWith fun _ => .unexpected none).Gives _
    exact Parse.gives_failWith _
  | succ n => exact gives_stmtsRule (Grammar.plain_grammar n)

/-! ## Units -/

theorem readPart_declares {part : List TokenTree} (hpart : ∀ t ∈ part, t.Plain) {stmts : List Stmt}
    {leftover : Option ParseError} (h : readPart part = .ok (stmts, leftover)) :
    ∀ stmt ∈ stmts, stmt.Plain := by
  obtain ⟨after, hrun, -⟩ := readPart_eq_ok.1 h
  exact gives_stmts _ _ after stmts hpart hrun

theorem parse_declares {cs : List Char} {stmts : List Stmt} (h : parse cs = .ok stmts) :
    ∀ stmt ∈ stmts, stmt.Plain := by
  unfold parse at h
  cases htokens : lex cs with
  | error e =>
    rw [htokens] at h
    cases h
  | ok tokens =>
    rw [htokens] at h
    obtain ⟨each, heach, rfl⟩ := readStmts_eq_ok.1 h
    intro stmt hstmt
    -- the statement is one of a part, and the words of the part are words of the text
    obtain ⟨stmts, hstmts, hstmt⟩ := List.mem_flatten.1 hstmt
    have hread : .ok (stmts, none) ∈ (parts tokens).map readPart := by
      rw [heach]
      exact List.mem_map_of_mem hstmts
    obtain ⟨part, hpart, hread⟩ := List.mem_map.1 hread
    refine readPart_declares (fun t ht => ?_) hread stmt hstmt
    rcases mem_of_mem_parts hpart ht with ht | ⟨s, rfl⟩
    · exact plain_lex htokens t ht
    · exact fun w s hword => TokenTree.noConfusion hword

/-- No statement of a unit declares a name that is not a word. -/
theorem parseUnit_declares {cs : List Char} {stmts : List Stmt} (h : parseUnit cs = .ok stmts) :
    ∀ stmt ∈ stmts, stmt.Plain := by
  unfold parseUnit at h
  split at h
  · rename_i stmts' hparse
    cases h
    exact parse_declares hparse
  · dsimp only at h
    split at h
    · cases h
    · split at h
      · rename_i stmts' hparse
        cases h
        exact parse_declares hparse
      · cases h

end Notebook.Syntax
