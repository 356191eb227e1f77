import Notebook.Syntax.Tree

/-!
# Paths through expressions

An expression has children, each reached by a step.  A path from an expression down to a node in it is the
list of its steps (`Expr.HasPath`), so it passes through one node more than it has steps.

Steps differ in where the tokens stand that they come with.  A step to the right has its keyword or operator
before the child, and a step to the left has it behind.  A step into brackets comes with the brackets.  What
is called or indexed comes with nothing of its own but the brackets behind it.
-/

namespace Notebook.Syntax

/-! ## Expressions of statements -/

mutual

/-- The expressions that the statements of a block begin with. -/
def Block.exprs : Block → List Expr
  | .mk stmts _ => Stmt.exprsAll stmts

/-- The expressions of statements. -/
def Stmt.exprsAll : List Stmt → List Expr
  | [] => []
  | s :: ss => s.exprs ++ Stmt.exprsAll ss

/-- The value of a binding, the expression that a statement is, or those of an item. -/
def Stmt.exprs : Stmt → List Expr
  | .bind _ value _ _ => value.toList
  | .expr value _ _ => [value]
  | .item value _ => value.exprs

/-- The value of a constant, or the expressions in the body of a function. -/
def Item.exprs : Item → List Expr
  | .constant _ _ value => [value]
  | .function _ body => body.exprs
  | .struct _ | .imports _ | .other => []

end

theorem Stmt.mem_exprsAll {stmts : List Stmt} {e : Expr} :
    e ∈ Stmt.exprsAll stmts ↔ ∃ s ∈ stmts, e ∈ s.exprs := by
  induction stmts with
  | nil => simp [Stmt.exprsAll]
  | cons s ss ih => simp [Stmt.exprsAll, ih]

/-- The expressions between the brackets of a macro call. -/
def MacroCall.exprs : MacroCall → List Expr
  | .mk _ _ (.items args _) _ _ => args
  | .mk _ _ (.malformed _) _ _ => []

/-! ## Steps and paths -/

/-- How a child of an expression stands in it. -/
inductive Step
  /-- Behind a keyword or an operator. -/
  | right
  /-- Before an operator. -/
  | left
  /-- Inside brackets. -/
  | inside
  /-- Before the brackets of a call or an index. -/
  | front
  deriving DecidableEq, Repr

namespace Expr

/-- The children of an expression, each with the step to it. -/
def children : Expr → List (Step × Expr)
  | paren e _ => [(.inside, e)]
  | reference e _ | unary _ e _ => [(.right, e)]
  | binary _ l r _ | compound _ l r _ | assign l r _ => [(.left, l), (.right, r)]
  | call f args _ => (.front, f) :: args.map (.inside, ·)
  | method e _ args _ => (.left, e) :: args.map (.inside, ·)
  | invocation m _ => m.exprs.map (.inside, ·)
  | ifThen c yes no _ => (.right, c) :: yes.exprs.map (.inside, ·) ++ no.toList.map (.right, ·)
  | block b _ | loop b _ => b.exprs.map (.inside, ·)
  | whileLoop c b _ => (.right, c) :: b.exprs.map (.inside, ·)
  | forLoop _ items b _ => (.right, items) :: b.exprs.map (.inside, ·)
  | range first last _ _ => first.toList.map (.left, ·) ++ last.toList.map (.right, ·)
  | returnFn value _ => value.toList.map (.right, ·)
  | array items _ => items.map (.inside, ·)
  | index target position _ => [(.front, target), (.inside, position)]
  | cast e _ _ => [(.left, e)]
  | literal .. | name .. | path .. | breakLoop .. | continueLoop .. | other .. => []

/-- The steps lead from the expression down to a node in it. -/
def HasPath : Expr → List Step → Prop
  | _, [] => True
  | e, s :: p => ∃ c, (s, c) ∈ e.children ∧ c.HasPath p

/-- Whether the steps lead down to a node. -/
def decidableHasPath : (e : Expr) → (p : List Step) → Decidable (e.HasPath p)
  | _, [] => isTrue trivial
  | e, s :: p =>
    have (x : Step × Expr) : Decidable (x.2.HasPath p) := decidableHasPath x.2 p
    decidable_of_iff (∃ x ∈ e.children, x.1 = s ∧ x.2.HasPath p)
      ⟨fun ⟨x, hx, heq, hp⟩ => ⟨x.2, heq ▸ hx, hp⟩, fun ⟨c, hc, hp⟩ => ⟨(s, c), hc, rfl, hp⟩⟩

instance (e : Expr) (p : List Step) : Decidable (e.HasPath p) := e.decidableHasPath p

theorem children_withStart (start : Text.Position) (e : Expr) :
    (e.withStart start).children = e.children := by
  cases e <;> rfl

theorem hasPath_congr {e e' : Expr} (h : e.children = e'.children) (p : List Step) :
    e.HasPath p ↔ e'.HasPath p := by
  cases p with
  | nil => exact Iff.rfl
  | cons s p => rw [HasPath, HasPath, h]

theorem hasPath_withStart (start : Text.Position) (e : Expr) (p : List Step) :
    (e.withStart start).HasPath p ↔ e.HasPath p :=
  hasPath_congr (children_withStart start e) p

/-- Where an expression is taken to start changes none of its paths. -/
theorem hasPath_extendLeft (start : Text.Position) (e : Expr) (p : List Step) :
    (e.extendLeft start).HasPath p ↔ e.HasPath p := by
  induction p generalizing e with
  | nil => exact Iff.rfl
  | cons s p ih =>
    -- what has a left side hands the place down to it
    have hfirst {l : Expr} {rest : List (Step × Expr)} :
        (∃ c, (s, c) ∈ (.left, l.extendLeft start) :: rest ∧ c.HasPath p) ↔
          ∃ c, (s, c) ∈ (.left, l) :: rest ∧ c.HasPath p := by
      simp only [List.mem_cons, Prod.mk.injEq, or_and_right, exists_or, and_assoc, exists_and_left,
        exists_eq_left, ih]
    cases e with
    | binary | compound | assign | cast =>
      simp only [extendLeft, HasPath, children]
      exact hfirst
    | _ => exact hasPath_withStart start _ _

end Expr

/-! ## What is counted of a path -/

/-- The steps of a path that come with a level of their own, as far as tokens before the node or brackets
around it show.  An operator behind a closed pair of brackets does not count for what is in the brackets. -/
def seen : List Step → Nat
  | [] => 0
  | .front :: p => seen p
  | .left :: p => if .inside ∈ p then seen p else seen p + 1
  | .right :: p | .inside :: p => seen p + 1

/-- The path goes to nothing that is called or indexed, and from no left side into brackets. -/
def IsPlain (p : List Step) : Prop := .front ∉ p ∧ ¬ [.left, .inside].Sublist p

instance (p : List Step) : Decidable (IsPlain p) := inferInstanceAs (Decidable (_ ∧ _))

theorem seen_of_isPlain {p : List Step} (h : IsPlain p) : seen p = p.length := by
  induction p with
  | nil => rfl
  | cons s p ih =>
    obtain ⟨hfront, hleft⟩ := h
    have hrest : IsPlain p :=
      ⟨fun hp => hfront (List.mem_cons_of_mem s hp), fun hp => hleft (hp.trans (List.sublist_cons_self s p))⟩
    cases s with
    | front => exact absurd List.mem_cons_self hfront
    | left =>
      have hinside : .inside ∉ p := fun hp => hleft ((List.singleton_sublist.2 hp).cons_cons .left)
      rw [seen, if_neg hinside, ih hrest, List.length_cons]
    | right => rw [seen, ih hrest, List.length_cons]
    | inside => rw [seen, ih hrest, List.length_cons]

end Notebook.Syntax
