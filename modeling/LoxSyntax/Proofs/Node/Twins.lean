import LoxSyntax.Node.Assembly
import LoxSyntax.Proofs.Token.Session

/-!
Trees put together in the same way from two scans of one text. The second tree is the first with its
operators moved to the other file. So the trees are told apart by their operators and by nothing
else, and a visitor to which an operator is its lexeme makes the same of both.
-/

namespace LoxSyntax

open Token Source

namespace Expression

/-- All nodes of a tree, the tree itself in front. -/
def nodes : Expression → List Expression
  | .binary left operator right =>
      .binary left operator right :: (left.nodes ++ right.nodes)
  | .grouping inner => .grouping inner :: inner.nodes
  | .literal value => [.literal value]
  | .unary operator right => .unary operator right :: right.nodes

/-- The operators of a tree, from the left to the right. -/
def operators : Expression → List Token
  | .binary left operator right => left.operators ++ operator :: right.operators
  | .grouping inner => inner.operators
  | .literal _ => []
  | .unary operator right => operator :: right.operators

def mapOperators (f : Token → Token) : Expression → Expression
  | .binary left operator right =>
      .binary (left.mapOperators f) (f operator) (right.mapOperators f)
  | .grouping inner => .grouping (inner.mapOperators f)
  | .literal value => .literal value
  | .unary operator right => .unary (f operator) (right.mapOperators f)

/-- To the visitor, operators with one lexeme are the same. The value of a literal is all that any
visitor sees of it, and one that keeps a state makes functions of the state. -/
structure Visitor.ReadsLexemes {α : Type} (visitor : Visitor α) : Prop where
  binary : ∀ left operator other right, operator.lexeme = other.lexeme →
    visitor.binary left operator right = visitor.binary left other right
  unary : ∀ operator other right, operator.lexeme = other.lexeme →
    visitor.unary operator right = visitor.unary other right

/-- How two trees compare that are put together in the same way from two scans of one text. -/
structure Twins (tree twin : Expression) : Prop where
  equal_self : (tree == tree) = true
  equal_clone : (tree == tree.clone) = true
  equal_iff : (tree == twin) = true ↔
    ∀ node ∈ tree.nodes, node.variant ≠ "Binary" ∧ node.variant ≠ "Unary"
  accept_eq : ∀ {α : Type} (visitor : Visitor α), visitor.ReadsLexemes →
    tree.accept visitor = twin.accept visitor
  prefixText_eq : tree.prefixText = twin.prefixText

end Expression

theorem Source.Span.beq_self (span : Span) : (span == span) = true := by
  change (_ == _ && _ == _ && _ == _) = true
  simp

/-- Tokens of two files are never equal. -/
theorem Token.beq_eq_false {a b : Token}
    (h : a.span.file.identity ≠ b.span.file.identity) : (a == b) = false := by
  have hspan : (a.span == b.span) = false := by
    change (_ == _ && _ == _ && _ == _) = false
    rw [beq_false_of_ne h, Bool.false_and, Bool.false_and]
  change (_ && (a.span == b.span && _)) = false
  rw [hspan, Bool.false_and, Bool.and_false]

theorem Token.beq_self (t : Token) : (t == t) = true := by
  change (t.kind == t.kind && (t.span == t.span && (t.literal == t.literal && t.line == t.line)))
    = true
  simp [Span.beq_self]

namespace Expression

variable {α : Type} {visitor : Visitor α} {f : Token → Token} {tree : Expression}

theorem beq_self (tree : Expression) : (tree == tree) = true := by
  change tree.equal tree = true
  induction tree with
  | binary left operator right ihl ihr => simp [equal, ihl, ihr, Token.beq_self]
  | grouping inner ih => exact ih
  | literal value => exact beq_self_eq_true value
  | unary operator right ih => simp [equal, ih, Token.beq_self]

theorem operators_eq_nil_iff (tree : Expression) :
    tree.operators = [] ↔
      ∀ node ∈ tree.nodes, node.variant ≠ "Binary" ∧ node.variant ≠ "Unary" := by
  induction tree with
  | binary left operator right ihl ihr => simp [operators, nodes, variant]
  | grouping inner ih => simp [operators, nodes, variant, ih]
  | literal value => simp [operators, nodes, variant]
  | unary operator right ih => simp [operators, nodes, variant]

/-- If each operator changes, only a tree without operators stays equal. -/
theorem beq_mapOperators_iff (h : ∀ t ∈ tree.operators, (t == f t) = false) :
    (tree == tree.mapOperators f) = true ↔ tree.operators = [] := by
  change tree.equal (tree.mapOperators f) = true ↔ _
  induction tree with
  | binary left operator right ihl ihr =>
      have hoperator : (operator == f operator) = false := h operator (by simp [operators])
      simp [mapOperators, equal, operators, hoperator]
  | grouping inner ih => exact ih h
  | literal value => simp [mapOperators, equal, operators]
  | unary operator right ih =>
      have hoperator : (operator == f operator) = false := h operator List.mem_cons_self
      simp [mapOperators, equal, operators, hoperator]

theorem accept_mapOperators (hvisitor : visitor.ReadsLexemes)
    (h : ∀ t ∈ tree.operators, (f t).lexeme = t.lexeme) :
    (tree.mapOperators f).accept visitor = tree.accept visitor := by
  induction tree with
  | binary left operator right ihl ihr =>
      rw [operators, List.forall_mem_append, List.forall_mem_cons] at h
      obtain ⟨hleft, hoperator, hright⟩ := h
      rw [mapOperators, accept, accept, ihl hleft, ihr hright]
      exact hvisitor.binary _ _ _ _ hoperator
  | grouping inner ih => exact congrArg visitor.grouping (ih h)
  | literal value => rfl
  | unary operator right ih =>
      obtain ⟨hoperator, hright⟩ := List.forall_mem_cons.1 h
      rw [mapOperators, accept, accept, ih hright]
      exact hvisitor.unary _ _ _ hoperator

theorem readsLexemes_prefixWriter : prefixWriter.ReadsLexemes where
  binary := by
    intro left operator other right h
    simp only [prefixWriter, h]
  unary := by
    intro operator other right h
    simp only [prefixWriter, h]

end Expression

namespace Assembly

open Expression

variable {token? : TokenRef → Option Token} {f : Token → Token} {P : Token → Prop}
  {s : Step} {steps : List Step} {stack next : List Expression} {answer : Answer}
  {trace : List (Answer × List Expression)}

theorem run_cons_eq_some_iff :
    run token? (s :: steps) stack = some trace ↔
      ∃ after later, step token? s stack = some after ∧
        run token? steps after.2 = some later ∧ trace = after :: later := by
  rw [run]
  cases step token? s stack with
  | none => simp
  | some after =>
      refine Option.map_eq_some_iff.trans ?_
      constructor
      · rintro ⟨later, hlater, rfl⟩
        exact ⟨after, later, rfl, hlater, rfl⟩
      · rintro ⟨_, later, ⟨⟩, hlater, rfl⟩
        exact ⟨later, hlater, rfl⟩

section Map

variable (hliteral : ∀ t, (f t).literal = t.literal)

include hliteral

/-- A step with other operators leaves a stack with other operators. -/
theorem step_map (token? : TokenRef → Option Token) (s : Step) (stack : List Expression) :
    (step (fun ref => (token? ref).map f) s (stack.map (mapOperators f))).map Prod.snd =
      (step token? s stack).map fun result => result.2.map (mapOperators f) := by
  cases s with
  | literal ref => cases h : token? ref <;> simp [step, h, mapOperators, hliteral]
  | nil => rfl
  | unary ref =>
      match stack with
      | [] => rfl
      | right :: stack => cases h : token? ref <;> simp [step, h, mapOperators]
  | binary ref =>
      match stack with
      | [] | [_] => rfl
      | right :: left :: stack => cases h : token? ref <;> simp [step, h, mapOperators]
  | group =>
      match stack with
      | [] => rfl
      | inner :: stack => rfl
  | dup =>
      match stack with
      | [] => rfl
      | top :: stack => simp [step]
  | swap =>
      match stack with
      | [] | [_] => rfl
      | top :: second :: stack => rfl
  | compare =>
      match stack with
      | [] | [_] => rfl
      | right :: left :: stack => rfl
  | inspect => rfl

theorem run_map (steps : List Step) (stack : List Expression)
    (h : run token? steps stack = some trace) :
    ∃ other, run (fun ref => (token? ref).map f) steps (stack.map (mapOperators f)) = some other ∧
      other.map Prod.snd = trace.map fun after => after.2.map (mapOperators f) := by
  induction steps generalizing stack trace with
  | nil =>
      cases h
      exact ⟨[], rfl, rfl⟩
  | cons s steps ih =>
      obtain ⟨after, later, hafter, hlater, rfl⟩ := run_cons_eq_some_iff.1 h
      have hstep := step_map hliteral token? s stack
      rw [hafter, Option.map_some] at hstep
      obtain ⟨twin, htwin, hnext⟩ := Option.map_eq_some_iff.1 hstep
      obtain ⟨other, hother, hstacks⟩ := ih after.2 hlater
      rw [← hnext] at hother
      refine ⟨twin :: other, run_cons_eq_some_iff.2 ⟨twin, other, htwin, hother, rfl⟩, ?_⟩
      rw [List.map_cons, List.map_cons, hnext, hstacks]

end Map

section Operators

variable (htoken : ∀ ref t, token? ref = some t → P t)

include htoken

/-- What holds of the tokens at hand and of the operators on a stack holds of those on the next. -/
theorem operators_step (hstack : ∀ tree ∈ stack, ∀ t ∈ tree.operators, P t)
    (h : step token? s stack = some (answer, next)) :
    ∀ tree ∈ next, ∀ t ∈ tree.operators, P t := by
  cases s with
  | literal ref =>
      obtain ⟨token, -, heq⟩ := Option.map_eq_some_iff.1 h
      cases heq
      exact List.forall_mem_cons.2 ⟨List.forall_mem_nil _, hstack⟩
  | nil =>
      cases h
      exact List.forall_mem_cons.2 ⟨List.forall_mem_nil _, hstack⟩
  | unary ref =>
      match stack, h with
      | right :: stack, h =>
          obtain ⟨operator, hoperator, heq⟩ := Option.map_eq_some_iff.1 h
          cases heq
          obtain ⟨hright, hstack⟩ := List.forall_mem_cons.1 hstack
          have hnew := List.forall_mem_cons.2 ⟨htoken ref operator hoperator, hright⟩
          exact List.forall_mem_cons.2 ⟨hnew, hstack⟩
  | binary ref =>
      match stack, h with
      | right :: left :: stack, h =>
          obtain ⟨operator, hoperator, heq⟩ := Option.map_eq_some_iff.1 h
          cases heq
          obtain ⟨hright, hleft, hstack⟩ := List.forall_mem_cons.1 hstack |>.imp_right
            List.forall_mem_cons.1
          have hnew := List.forall_mem_cons.2 ⟨htoken ref operator hoperator, hright⟩
          exact List.forall_mem_cons.2 ⟨List.forall_mem_append.2 ⟨hleft, hnew⟩, hstack⟩
  | group =>
      match stack, h with
      | inner :: stack, h =>
          cases h
          exact List.forall_mem_cons.2 (List.forall_mem_cons.1 hstack)
  | dup =>
      match stack, h with
      | top :: stack, h =>
          cases h
          rw [clone_eq]
          exact List.forall_mem_cons.2 ⟨hstack top List.mem_cons_self, hstack⟩
  | swap =>
      match stack, h with
      | top :: second :: stack, h =>
          cases h
          obtain ⟨htop, hsecond, hstack⟩ := List.forall_mem_cons.1 hstack |>.imp_right
            List.forall_mem_cons.1
          exact List.forall_mem_cons.2 ⟨hsecond, List.forall_mem_cons.2 ⟨htop, hstack⟩⟩
  | compare =>
      match stack, h with
      | right :: left :: stack, h =>
          cases h
          exact (List.forall_mem_cons.1 (List.forall_mem_cons.1 hstack).2).2
  | inspect =>
      cases h
      exact hstack

theorem operators_run (hstack : ∀ tree ∈ stack, ∀ t ∈ tree.operators, P t)
    (h : run token? steps stack = some trace) :
    ∀ after ∈ trace, ∀ tree ∈ after.2, ∀ t ∈ tree.operators, P t := by
  induction steps generalizing stack trace with
  | nil =>
      cases h
      exact List.forall_mem_nil _
  | cons s steps ih =>
      obtain ⟨after, later, hafter, hlater, rfl⟩ := run_cons_eq_some_iff.1 h
      have hnext := operators_step htoken hstack hafter
      exact List.forall_mem_cons.2 ⟨hnext, ih hnext hlater⟩

end Operators

section Scans

variable {file other : File}

theorem file_of_mem_toList {t : Token} (h : t ∈ (scan file).stream.toList) :
    t.span.file = file := by
  rw [toList_scan, List.mem_append, List.mem_singleton] at h
  cases h with
  | inl h =>
      obtain ⟨p, -, -, hspan⟩ := exists_piece_of_mem_body h
      rw [hspan]
      rfl
  | inr h =>
      rw [h]
      rfl

theorem mem_toList_of_find? {stream : Stream} {ref : TokenRef} {t : Token}
    (h : ref.find? [stream] = some t) : t ∈ stream.toList := by
  obtain ⟨scan, place⟩ := ref
  cases scan with
  | zero => exact List.mem_of_getElem? h
  | succ scan => cases h

/-- What a reference finds in a scan of the same text is the same token in the other file. -/
theorem find?_of_content (h : other.content = file.content) (ref : TokenRef) :
    ref.find? [(scan other).stream] =
      (ref.find? [(scan file).stream]).map (.moved other 0 0) := by
  obtain ⟨scan, place⟩ := ref
  cases scan with
  | zero =>
      change (Token.scan other).stream.toList[place]? = _
      rw [toList_scan_of_content h, List.getElem?_map]
      rfl
  | succ scan => rfl

theorem lexeme_moved_of_content {t : Token} (hcontent : other.content = file.content)
    (hfile : t.span.file = file) : (t.moved other 0 0).lexeme = t.lexeme := by
  have hchars : other.chars = file.chars := congrArg String.toList hcontent
  rw [Token.lexeme, Token.lexeme, Span.text, Span.text, hfile, ← hchars]
  rfl

theorem twins_mapOperators {tree : Expression} (hcontent : other.content = file.content)
    (hidentity : other.identity ≠ file.identity)
    (htree : ∀ t ∈ tree.operators, t.span.file = file) :
    Twins tree (tree.mapOperators (.moved other 0 0)) := by
  have hapart : ∀ t ∈ tree.operators, (t == t.moved other 0 0) = false := by
    intro t ht
    refine Token.beq_eq_false ?_
    rw [htree t ht]
    exact hidentity.symm
  have hlexeme : ∀ t ∈ tree.operators, (t.moved other 0 0).lexeme = t.lexeme :=
    fun t ht => lexeme_moved_of_content hcontent (htree t ht)
  refine
    { equal_self := beq_self tree
      equal_clone := by rw [clone_eq, Expression.beq_self]
      equal_iff := (beq_mapOperators_iff hapart).trans (operators_eq_nil_iff tree)
      accept_eq := fun visitor hvisitor => (accept_mapOperators hvisitor hlexeme).symm
      prefixText_eq := (accept_mapOperators readsLexemes_prefixWriter hlexeme).symm }

/-- Steps that can be taken with the tokens of one scan can be taken with those of a scan of the
same text in another file. After each of them the stacks hold twins. -/
theorem twins_of_run (hcontent : other.content = file.content)
    (hidentity : other.identity ≠ file.identity)
    (h : run (TokenRef.find? [(scan file).stream]) steps [] = some trace) :
    ∃ twinTrace, run (TokenRef.find? [(scan other).stream]) steps [] = some twinTrace ∧
      List.Forall₂ (fun after twin => List.Forall₂ Twins after.2 twin.2) trace twinTrace := by
  have htokens : TokenRef.find? [(scan other).stream] =
      fun ref => (ref.find? [(scan file).stream]).map (.moved other 0 0) :=
    funext (find?_of_content hcontent)
  obtain ⟨twinTrace, htwin, hstacks⟩ := run_map (f := .moved other 0 0) (fun _ => rfl) steps [] h
  refine ⟨twinTrace, by rw [htokens]; exact htwin, ?_⟩
  have hfile := operators_run (P := fun t => t.span.file = file)
    (fun ref t ht => file_of_mem_toList (mem_toList_of_find? ht)) (List.forall_mem_nil _) h
  have hpairs : List.Forall₂ (List.Forall₂ Twins) (trace.map Prod.snd)
      (twinTrace.map Prod.snd) := by
    rw [hstacks, List.forall₂_map_left_iff, List.forall₂_map_right_iff, List.forall₂_same]
    intro after hafter
    rw [List.forall₂_map_right_iff, List.forall₂_same]
    exact fun tree htree => twins_mapOperators hcontent hidentity (hfile after hafter tree htree)
  rwa [List.forall₂_map_left_iff, List.forall₂_map_right_iff] at hpairs

theorem twins_of_run_comparison :
    let file : File := ⟨0, ⟨"a.lox"⟩, "-\"é\" == (1.5)"⟩
    let other : File := ⟨1, ⟨"b.lox"⟩, "-\"é\" == (1.5)"⟩
    let steps : List Step :=
      [.literal ⟨0, 1⟩, .unary ⟨0, 0⟩, .literal ⟨0, 4⟩, .group, .binary ⟨0, 2⟩]
    other.content = file.content ∧ other.identity ≠ file.identity ∧
      ∃ trace twinTrace,
        run (TokenRef.find? [(scan file).stream]) steps [] = some trace ∧
        trace.map (fun after => after.2.map prefixText) =
          [["é"], ["(- é)"], ["1.5", "(- é)"], ["(group 1.5)", "(- é)"],
            ["(== (- é) (group 1.5))"]] ∧
        run (TokenRef.find? [(scan other).stream]) steps [] = some twinTrace ∧
        List.Forall₂ (fun after twin => List.Forall₂ Twins after.2 twin.2) trace twinTrace := by
  intro file other steps
  have htexts : (run (TokenRef.find? [(scan file).stream]) steps []).map
      (List.map fun after => after.2.map prefixText) = some
        [["é"], ["(- é)"], ["1.5", "(- é)"], ["(group 1.5)", "(- é)"],
          ["(== (- é) (group 1.5))"]] := by decide +kernel
  obtain ⟨trace, htrace, hwritten⟩ := Option.map_eq_some_iff.1 htexts
  have hcontent : other.content = file.content := rfl
  have hidentity : other.identity ≠ file.identity := by decide
  obtain ⟨twinTrace, htwin, hpairs⟩ := twins_of_run hcontent hidentity htrace
  exact ⟨hcontent, hidentity, trace, twinTrace, htrace, hwritten, htwin, hpairs⟩

end Scans

end Assembly

end LoxSyntax
