import RowConsole.Script.Method

/-!
# Evaluation

How expressions, statements and calls run on the machine. The number of frames is limited by `limit`.

Each construct is run by procedures that are given to it for its parts; the procedures are then tied together
by a bound on the remaining recursion (`fuel`). A run that reaches the bound is cut off, which is told apart
from every failure of the script. Only a loop on a condition can need more than any bound.
-/

namespace RowConsole.Script

variable {γ : Type} [Globals γ]

/-! ## Section 1: Control Flow -/

/-- How a statement ends. -/
inductive Flow where
  | next (v : Value)
  | returned (v : Value)
  | broke
  | continued
  deriving Inhabited

/-- Runs statements in order until one leaves the block; the value is that of the last statement. -/
def runBlock (exec : Stmt → Run γ Flow) (last : Value) : List Stmt → Run γ Flow
  | [] => return .next last
  | s :: rest => do
    match ← exec s with
    | .next v => runBlock exec v rest
    | flow => return flow

/-- Runs the body of a loop over elements until they run out or the body leaves the loop. -/
def runFor (body : Value → Run γ Flow) : List Value → Run γ Flow
  | [] => return .next .null
  | item :: rest => do
    match ← body item with
    | .broke => return .next .null
    | .returned v => return .returned v
    | .next _ | .continued => runFor body rest

/-- Runs the body of a loop on a condition, at most `fuel` times. -/
def runWhile (fuel : Nat) (cond : Run γ Value) (body : Run γ Flow) : Run γ Flow :=
  match fuel with
  | 0 => Run.exhausted
  | fuel + 1 => do
    if (← cond).truthy then
      match ← body with
      | .broke => return .next .null
      | .returned v => return .returned v
      -- A turn costs one unit of the bound, whatever the body does.
      | .next _ | .continued => runWhile fuel cond body
    else return .next .null

/-- The value of a body that has come to its end or returned. -/
def Flow.result : Flow → Attempt Value
  | .next v | .returned v => .ok v
  | .broke | .continued => failure .strayLoopControl

/-! ## Section 2: Calls -/

/-- The parameters of a routine with the arguments given for them, null where one is missing. -/
def bindParams (params : List String) (args : List Value) (scope : Scope) : Scope :=
  match params with
  | [] => scope
  | p :: params => bindParams params args.tail (OrderedMap.insert scope p (args.head?.getD .null))

/-- The scope of the parameters of a call. A closure without parameters knows its first argument as `it`. -/
def paramScope (routine : Routine) (args : List Value) : Scope :=
  let scope :=
    if routine.isClosure && routine.params.isEmpty then [("it", args.head?.getD .null)] else []
  bindParams routine.params args scope

/-- Calls a routine in a frame of its own, its body run by `block`. A failure in it records the call. -/
def callRoutine (limit : Nat) (block : List Stmt → Run γ Flow) (routine : Routine)
    (captured : OrderedMap Value) (args : List Value) (p : Pos) : Run γ Value := do
  if limit ≤ (← get).depth then Run.failAt (.callTooDeep limit) p
  -- Closures take any number of arguments; what is missing is null.
  else if !routine.isClosure && args.length ≠ routine.params.length then
    Run.failAt (.arity routine.displayName (toString routine.params.length) args.length) p
  else
    -- The parameters shadow what was captured, and both shadow the globals.
    let frame : Frame := ⟨[paramScope routine args, captured], false⟩
    let body : Run γ Value := do
      let flow ← withFrame frame (block routine.body)
      Run.ofResult flow.result
    body.mapFailure fun e => e.inCall routine.displayName p

/-- Calls a value: a function, a closure or a builtin function. -/
def callWith (limit : Nat) (block : List Stmt → Run γ Flow) (p : Pos) (f : Value)
    (args : List Value) : Run γ Value :=
  match f with
  | .builtin b => do
    let (v, written) ← Run.ofResultAt p (b.apply args)
    match written with
    | some text => (write text).located p
    | none => pure ()
    return v
  | .function routine _ captured => callRoutine limit block routine captured args p
  | other => Run.failAt (.notCallable other.type) p

/-- Calls a method: the entry of a map that has that name, if it can be called, or else a method of the
language. -/
def callMethod (call : Caller γ) (p : Pos) (receiver : Value) (name : String)
    (args : List Value) : Run γ Value :=
  let entry? := match receiver with
    | .map entries => (OrderedMap.get? entries name).filter Value.isCallable
    | _ => none
  match entry? with
  | some f => call f args
  | none => (invokeMethod call receiver name args).located p

/-! ## Section 3: One Construct -/

/-- The value of an expression, its parts evaluated by `eval` and its calls made by `call`. -/
def evalWith (eval : Expr → Run γ Value) (call : Pos → Caller γ) : Expr → Run γ Value
  | .null => return .null
  | .bool b => return .bool b
  | .int n => return .int n
  | .float literal => return .float (literalValue literal)
  | .str s => return .str s
  | .list items => do return .list (← items.mapM eval)
  | .map entries => do
    let entries ← entries.mapM fun (key, e) => do return (key, ← eval e)
    return .map (OrderedMap.ofEntries entries)
  | .var name p => do
    match (← get).lookup name with
    | some v => return v
    | none => Run.failAt (.noVariable name) p
  | .unary op operand p => do
    let v ← eval operand
    Run.ofResultAt p (applyUnary op v)
  | .binary op left right p => do
    let left ← eval left
    let right ← eval right
    Run.ofResultAt p (applyBinary op left right)
  | .and left right => do
    if (← eval left).truthy then return .bool (← eval right).truthy
    else return .bool false
  | .or left right => do
    if (← eval left).truthy then return .bool true
    else return .bool (← eval right).truthy
  | .member object name p => do
    let v ← eval object
    Run.ofResultAt p (member name v)
  | .index object index p => do
    let container ← eval object
    let index ← eval index
    Run.ofResultAt p (elementAt container index)
  -- A name that is called is looked up before its arguments run, and a missing one is blamed at the call.
  | .call (.var name _) args p => do
    match (← get).lookup name with
    | none => Run.failAt (.noFunction name) p
    | some f =>
      let args ← args.mapM eval
      call p f args
  | .call callee args p => do
    let f ← eval callee
    let args ← args.mapM eval
    call p f args
  | .method receiver name args p => do
    let receiver ← eval receiver
    let args ← args.mapM eval
    callMethod (call p) p receiver name args
  | .closure params body _ => do
    newFunction ⟨none, params, body⟩ (flattenScopes (← get).frame.scopes)

/-- Runs a statement, its expressions evaluated by `eval`, its targets written by `store`, its blocks run in a
scope of their own by `inner` and its loop on a condition by `loop`. -/
def execWith (eval : Expr → Run γ Value) (store : Expr → Value → Pos → Run γ Unit)
    (inner : Scope → List Stmt → Run γ Flow) (loop : Run γ Value → Run γ Flow → Run γ Flow) :
    Stmt → Run γ Flow
  | .expr e => do return .next (← eval e)
  | .declare name init p => do
    let v ← match init with
      | some e => eval e
      | none => pure .null
    (declareName name v).located p
    return .next v
  | .assign target op e p => do
    -- The right side runs before the target, also where the old value of the target is needed.
    let right ← eval e
    let v ← match op with
      | .set => pure right
      | .add => do Run.ofResultAt p (applyBinary .add (← eval target) right)
      | .sub => do Run.ofResultAt p (applyBinary .sub (← eval target) right)
    store target v p
    return .next v
  | .function name params body p => do
    -- A named function captures nothing: it sees the globals of the time it is called.
    let f ← newFunction ⟨some name, params, body⟩ []
    (declareName name f).located p
    return .next .null
  | .branch cond thenBody elseBody => do
    if (← eval cond).truthy then inner [] thenBody
    else
      match elseBody with
      | some body => inner [] body
      | none => return .next .null
  | .whileLoop cond body => loop (eval cond) (inner [] body)
  | .forLoop var items body p => do
    let items ← Run.ofResultAt p (elements (← eval items))
    -- Every turn has a scope of its own.
    runFor (fun item => inner [(var, item)] body) items
  | .returns none => return .returned .null
  | .returns (some e) => do return .returned (← eval e)
  | .breaks => return .broke
  | .continues => return .continued

/-- Writes a value into the place that an expression names. The containers around the place are evaluated by
`eval` and rebuilt from the inside to the outside, each written back by `store`. -/
def storeWith (eval : Expr → Run γ Value) (store : Expr → Value → Pos → Run γ Unit) (target : Expr)
    (v : Value) (p : Pos) : Run γ Unit :=
  match target with
  | .var name _ => (assignName name v).located p
  | .member object name q => do
    let container ← eval object
    let updated ← Run.ofResultAt q (setMember container name v)
    store object updated p
  | .index object index q => do
    let container ← eval object
    let index ← eval index
    let updated ← Run.ofResultAt q (setElement container index v)
    store object updated p
  | _ => Run.failAt .temporaryTarget p

/-! ## Section 4: Expressions and Statements -/

/-- Runs the statements of a block in one more scope. -/
def runScoped (exec : Stmt → Run γ Flow) (scope : Scope) (body : List Stmt) : Run γ Flow :=
  withScope scope (runBlock exec .null body)

mutual

/-- The value of an expression. -/
def eval (limit fuel : Nat) (e : Expr) : Run γ Value :=
  match fuel with
  | 0 => Run.exhausted
  | fuel + 1 => evalWith (eval limit fuel) (callWith limit (runBlock (exec limit fuel) .null)) e
termination_by structural fuel

/-- Runs a statement. -/
def exec (limit fuel : Nat) (s : Stmt) : Run γ Flow :=
  match fuel with
  | 0 => Run.exhausted
  | fuel + 1 =>
    execWith (eval limit fuel) (store limit fuel) (runScoped (exec limit fuel)) (runWhile fuel) s
termination_by structural fuel

/-- Writes a value into the place that an expression names. -/
def store (limit fuel : Nat) (target : Expr) (v : Value) (p : Pos) : Run γ Unit :=
  match fuel with
  | 0 => Run.exhausted
  | fuel + 1 => storeWith (eval limit fuel) (store limit fuel) target v p
termination_by structural fuel

end

/-! ## Section 5: Programs -/

/-- Runs a program; the result is the value of the last statement. -/
def runProgram (limit fuel : Nat) (program : List Stmt) : Run γ Value := do
  let flow ← runBlock (exec limit fuel) .null program
  Run.ofResult flow.result

end RowConsole.Script
