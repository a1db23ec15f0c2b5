import RowConsole.Proofs.Script.Congruence.Methods

/-!
# Congruences and Constructs

Control flow, expressions, statements and writes keep a congruence, since each construct only puts runs of its parts
together. What a call of a routine makes of its body is not said here: this is where congruences differ.

Main statements: `Congruence.evalWith`, `Congruence.execWith` and `Congruence.storeWith`.
-/

namespace RowConsole.Script

variable {γ γ' : Type}

/-! ## Section 1: Control Flow -/

namespace RunRelation

variable (R : RunRelation γ γ')

/-- A block is related if its statements are. -/
theorem runBlock {exec : Stmt → Run γ Flow} {exec' : Stmt → Run γ' Flow} (hexec : ∀ s, R.Rel (exec s) (exec' s))
    (last : Value) (stmts : List Stmt) :
    R.Rel (Script.runBlock exec last stmts) (Script.runBlock exec' last stmts) := by
  induction stmts generalizing last with
  | nil => exact R.pure (Flow.next last)
  | cons s rest ih =>
    rw [Script.runBlock, Script.runBlock]
    apply R.bind (hexec s)
    intro flow
    cases flow with
    | next v => exact ih v
    | returned v => exact R.pure (Flow.returned v)
    | broke => exact R.pure Flow.broke
    | continued => exact R.pure Flow.continued

/-- A loop over elements is related if its body is. -/
theorem runFor {body : Value → Run γ Flow} {body' : Value → Run γ' Flow} (hbody : ∀ v, R.Rel (body v) (body' v))
    (items : List Value) : R.Rel (Script.runFor body items) (Script.runFor body' items) := by
  induction items with
  | nil => exact R.pure (Flow.next .null)
  | cons item rest ih =>
    rw [Script.runFor, Script.runFor]
    apply R.bind (hbody item)
    intro flow
    cases flow with
    | next v => exact ih
    | returned v => exact R.pure (Flow.returned v)
    | broke => exact R.pure (Flow.next .null)
    | continued => exact ih

end RunRelation

namespace Congruence

variable [Globals γ] [Globals γ'] (K : Congruence γ γ')

/-- A loop on a condition is related if its condition and its body are; both loops are cut off at the same time. -/
theorem runWhile {cond : Run γ Value} {cond' : Run γ' Value} {body : Run γ Flow} {body' : Run γ' Flow} (fuel : Nat)
    (hcond : K.Rel cond cond') (hbody : K.Rel body body') :
    K.Rel (Script.runWhile fuel cond body) (Script.runWhile fuel cond' body') := by
  induction fuel with
  | zero => exact K.exhausted
  | succ fuel ih =>
    rw [Script.runWhile, Script.runWhile]
    -- One turn of the loop, and the rest with the fuel that is left.
    apply K.bind hcond
    intro v
    split
    · apply K.bind hbody
      intro flow
      cases flow with
      | next v => exact ih
      | returned v => exact K.pure (Flow.returned v)
      | broke => exact K.pure (Flow.next .null)
      | continued => exact ih
    · exact K.pure (Flow.next .null)

/-- The statements of a block in one more scope. -/
theorem runScoped {exec : Stmt → Run γ Flow} {exec' : Stmt → Run γ' Flow} (hexec : ∀ s, K.Rel (exec s) (exec' s))
    (scope : Scope) (body : List Stmt) :
    K.Rel (Script.runScoped exec scope body) (Script.runScoped exec' scope body) :=
  K.withScope scope (K.runBlock hexec .null body)

/-- Calls of a value are related if those are that run a routine. -/
theorem callWith {limit limit' : Nat} {block : List Stmt → Run γ Flow} {block' : List Stmt → Run γ' Flow} {p : Pos}
    {f : Value} {args : List Value}
    (hroutine : ∀ routine serial captured, f = .function routine serial captured →
      K.Rel (callRoutine limit block routine captured args p) (callRoutine limit' block' routine captured args p)) :
    K.Rel (Script.callWith limit block p f args) (Script.callWith limit' block' p f args) := by
  cases f with
  | builtin b =>
    apply K.bind (K.ofResultAt p (failsPlainly_builtin b args))
    rintro ⟨v, written⟩
    cases written with
    | none => exact K.bind (K.pure ()) fun _ => K.pure v
    | some text => exact K.bind (K.located p (K.write text)) fun _ => K.pure v
  | function routine serial captured => exact hroutine routine serial captured rfl
  | _ => exact K.failAt (by simp) p

/-! ## Section 2: One Construct -/

variable {eval : Expr → Run γ Value} {eval' : Expr → Run γ' Value} {call : Pos → Caller γ} {call' : Pos → Caller γ'}
  {store : Expr → Value → Pos → Run γ Unit} {store' : Expr → Value → Pos → Run γ' Unit}

/-- An expression is related if its parts and calls are. -/
theorem evalWith (heval : ∀ e, K.Rel (eval e) (eval' e)) (hcall : ∀ p, K.Calls (call p) (call' p)) (e : Expr) :
    K.Rel (Script.evalWith eval call e) (Script.evalWith eval' call' e) := by
  have hargs : ∀ args : List Expr, K.Rel (args.mapM eval) (args.mapM eval') := K.mapM heval
  cases e with
  | list items => exact K.bind (hargs items) fun values => K.pure (Value.list values)
  | map entries =>
    have hentries : K.Rel (entries.mapM fun entry => do return (entry.1, ← eval entry.2))
        (entries.mapM fun entry => do return (entry.1, ← eval' entry.2)) := by
      apply K.mapM
      rintro ⟨key, e⟩
      exact K.bind (heval e) fun v => K.pure (key, v)
    exact K.bind hentries fun made => K.pure (Value.map (OrderedMap.ofEntries made))
  | var name p =>
    apply K.get_bind
    intro m m' halike
    rw [halike.lookup]
    cases m.lookup name with
    | none => exact K.failAt (by simp) p
    | some v => exact K.pure v
  | unary op operand p =>
    exact K.bind (heval operand) fun v => K.ofResultAt p (failsPlainly_applyUnary op v)
  | binary op left right p =>
    apply K.bind (heval left)
    intro v
    exact K.bind (heval right) fun w => K.ofResultAt p (failsPlainly_applyBinary op v w)
  | and left right =>
    apply K.bind (heval left)
    intro v
    split
    · exact K.bind (heval right) fun w => K.pure (Value.bool w.truthy)
    · exact K.pure (Value.bool false)
  | or left right =>
    apply K.bind (heval left)
    intro v
    split
    · exact K.pure (Value.bool true)
    · exact K.bind (heval right) fun w => K.pure (Value.bool w.truthy)
  | member object name p =>
    exact K.bind (heval object) fun v => K.ofResultAt p (failsPlainly_member name v)
  | index object place p =>
    apply K.bind (heval object)
    intro v
    exact K.bind (heval place) fun w => K.ofResultAt p (failsPlainly_elementAt v w)
  | call callee args p =>
    have hother : K.Rel
        (do
          let f ← eval callee
          let args ← args.mapM eval
          call p f args)
        (do
          let f ← eval' callee
          let args ← args.mapM eval'
          call' p f args) := by
      apply K.bind (heval callee)
      intro f
      exact K.bind (hargs args) (hcall p f)
    cases callee with
    | var name q =>
      -- a name that is called is looked up before its arguments are evaluated
      apply K.get_bind
      intro m m' halike
      rw [halike.lookup]
      cases m.lookup name with
      | none => exact K.failAt (by simp) p
      | some f => exact K.bind (hargs args) (hcall p f)
    | _ => exact hother
  | method receiver name args p =>
    apply K.bind (heval receiver)
    intro v
    apply K.bind (hargs args)
    intro values
    exact callMethod (hcall p) p v name values
  | closure params body p =>
    apply K.get_bind
    intro m m' halike
    rw [halike.scopes]
    exact K.newFunction ⟨none, params, body⟩ (flattenScopes m.frame.scopes)
  | _ => exact K.pure _

/-- A statement is related if its expressions, its targets, its blocks and its loop on a condition are. -/
theorem execWith {inner : Scope → List Stmt → Run γ Flow} {inner' : Scope → List Stmt → Run γ' Flow}
    {loop : Run γ Value → Run γ Flow → Run γ Flow} {loop' : Run γ' Value → Run γ' Flow → Run γ' Flow}
    (heval : ∀ e, K.Rel (eval e) (eval' e)) (hstore : ∀ e v p, K.Rel (store e v p) (store' e v p))
    (hinner : ∀ scope body, K.Rel (inner scope body) (inner' scope body))
    (hloop : ∀ {cond cond' body body'}, K.Rel cond cond' → K.Rel body body' → K.Rel (loop cond body) (loop' cond' body'))
    (s : Stmt) : K.Rel (Script.execWith eval store inner loop s) (Script.execWith eval' store' inner' loop' s) := by
  cases s with
  | expr e => exact K.bind (heval e) fun v => K.pure (Flow.next v)
  | declare name init p =>
    have hdeclared : ∀ v, K.Rel
        (do
          (Script.declareName name v : Run γ Unit).located p
          return Flow.next v)
        (do
          (Script.declareName name v : Run γ' Unit).located p
          return Flow.next v) := fun v =>
      K.bind (K.located p (K.declareName name v)) fun _ => K.pure (Flow.next v)
    cases init with
    | none => exact K.bind (K.pure Value.null) hdeclared
    | some e => exact K.bind (heval e) hdeclared
  | assign target op e p =>
    have hstored : ∀ v, K.Rel
        (do
          store target v p
          return Flow.next v)
        (do
          store' target v p
          return Flow.next v) := fun v =>
      K.bind (hstore target v p) fun _ => K.pure (Flow.next v)
    apply K.bind (heval e)
    intro right
    -- the old value is read only where the new one is made of it
    cases op with
    | set => exact K.bind (K.pure right) hstored
    | add =>
      apply K.bind (heval target)
      intro v
      exact K.bind (K.ofResultAt p (failsPlainly_applyBinary .add v right)) hstored
    | sub =>
      apply K.bind (heval target)
      intro v
      exact K.bind (K.ofResultAt p (failsPlainly_applyBinary .sub v right)) hstored
  | function name params body p =>
    apply K.bind (K.newFunction ⟨some name, params, body⟩ [])
    intro f
    exact K.bind (K.located p (K.declareName name f)) fun _ => K.pure (Flow.next .null)
  | branch cond thenBody elseBody =>
    apply K.bind (heval cond)
    intro v
    split
    · exact hinner [] thenBody
    · cases elseBody with
      | none => exact K.pure (Flow.next .null)
      | some body => exact hinner [] body
  | whileLoop cond body => exact hloop (heval cond) (hinner [] body)
  | forLoop name items body p =>
    apply K.bind (heval items)
    intro v
    apply K.bind (K.ofResultAt p (failsPlainly_elements v))
    intro visited
    exact K.runFor (fun item => hinner [(name, item)] body) visited
  | returns value =>
    cases value with
    | none => exact K.pure (Flow.returned .null)
    | some e => exact K.bind (heval e) fun v => K.pure (Flow.returned v)
  | breaks => exact K.pure Flow.broke
  | continues => exact K.pure Flow.continued

/-- A write to a place is related if the expressions around it and the writes to them are. -/
theorem storeWith (heval : ∀ e, K.Rel (eval e) (eval' e)) (hstore : ∀ e v p, K.Rel (store e v p) (store' e v p))
    (target : Expr) (v : Value) (p : Pos) :
    K.Rel (Script.storeWith eval store target v p) (Script.storeWith eval' store' target v p) := by
  cases target with
  | var name q => exact K.located p (K.assignName name v)
  | member object name q =>
    apply K.bind (heval object)
    intro container
    apply K.bind (K.ofResultAt q (failsPlainly_setMember container name v))
    intro updated
    exact hstore object updated p
  | index object place q =>
    apply K.bind (heval object)
    intro container
    apply K.bind (heval place)
    intro index
    apply K.bind (K.ofResultAt q (failsPlainly_setElement container index v))
    intro updated
    exact hstore object updated p
  | _ => exact K.failAt (by simp) p

end Congruence

end RowConsole.Script
