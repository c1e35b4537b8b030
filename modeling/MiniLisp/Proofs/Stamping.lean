import MiniLisp.Proofs.ReadEval
import MiniLisp.Proofs.Runs
import MiniLisp.Proofs.Tracking

/-! Where errors are reported. The evaluator raises errors without a position, and each list that an
error passes on its way out gives it one if it has none yet. Here is an evaluator that works the other
way round: it knows the lists under evaluation and stamps an error with the innermost one when it raises
it. `Stamps` says that an evaluation of the one kind ends as one of the other kind does, inside any
lists; every way of building evaluations keeps it, so each part of the evaluator keeps it, and an
induction on the levels left gives it for the whole. -/

namespace MiniLisp

/-- The lists under evaluation, the innermost first, by where they were opened. -/
abbrev Trace := List (Option Position)

/-- Where the innermost list that has a position was opened. -/
def Trace.innermost (trace : Trace) : Option Position := trace.findSome? id

@[simp] theorem Trace.innermost_nil : innermost [] = none := rfl

theorem Trace.innermost_cons (opened : Option Position) (trace : Trace) :
    innermost (opened :: trace) = (opened <|> innermost trace) := by
  cases opened <;> rfl

/-- An evaluation that knows the lists it is in. -/
abbrev Stamped := ReaderT Trace Eval

namespace Stamped

variable {α : Type}

def raise (c : Cause) : Stamped α := fun trace => throw (.running ⟨c, trace.innermost⟩)

def ofExcept : Except Cause α → Stamped α
  | .ok a => pure a
  | .error c => raise c

def perform (op : Op α) : Stamped α := do
  let (result, world) := op (← get).world
  modify fun m => { m with world := world }
  ofExcept result

def resolve (name : String) : Stamped Value := do
  ofExcept ((← get).resolve name)

/-- Runs `s` in one more list. -/
def inside (opened : Option Position) (s : Stamped α) : Stamped α := fun trace => s (opened :: trace)

def within (bindings : Bindings Value) (s : Stamped α) : Stamped α := fun trace =>
  Eval.within bindings (s trace)

def calling (scope : ScopeId) (bindings : Bindings Value) (s : Stamped α) : Stamped α := fun trace =>
  Eval.calling scope bindings (s trace)

end Stamped

/-- Stamping evaluation one level deeper. -/
structure StampedLevel where
  expr : Value → Stamped Value
  call : List Value → Stamped Value

namespace StampedLevel

open Stamped
open Level (branch? isElse paramNames)

def body (k : StampedLevel) : Value → Stamped Value
  | .list items _ opened => inside opened (k.call items)
  | v => k.expr v

def exprs (k : StampedLevel) : List Value → Stamped (List Value)
  | [] => pure []
  | e :: es => do
    let v ← k.expr e
    let vs ← k.exprs es
    return v :: vs

def apply (k : StampedLevel) (f : Value) (args : List Value) : Stamped Value :=
  match f with
  | .native h n => do
    let args ← ofExcept (bindArguments h.params args)
    let m ← get
    perform (m.operation n args)
  | .lambda h body captured => do
    let bindings ← ofExcept (suppliedArguments h.params args)
    let m ← get
    calling (captured.getD m.global) (.ofList bindings) (k.body body)
  | v => raise (.notCallable v)

def condition (form : SpecialForm) : Value → Stamped Bool
  | .bool b => pure b
  | v => raise (.conditionNotBool form v)

def sequence (k : StampedLevel) (last : Value) : List Value → Stamped Value
  | [] => pure last
  | e :: es => do
    let v ← k.expr e
    k.sequence v es

def conditional (k : StampedLevel) : List Value → Stamped Value
  | [test, yes] => do
    let b ← condition .conditional (← k.expr test)
    if b then k.expr yes else pure .nil
  | [test, yes, no] => do
    let b ← condition .conditional (← k.expr test)
    if b then k.expr yes else k.expr no
  | operands => raise (.argumentCount (.between 2 3) operands.length)

def choice (k : StampedLevel) (fallback : Option Value) : List Value → Stamped Value
  | [] =>
    match fallback with
    | some result => k.expr result
    | none => pure .nil
  | b :: bs =>
    match branch? b with
    | none => raise (.malformedBranch b)
    | some (test, result) => do
      let v ← k.expr test
      if isElse v then k.choice (some result) bs
      else
        let holds ← condition .choice v
        if holds then k.expr result else k.choice fallback bs

def evaluation (k : StampedLevel) : List Value → Stamped Value
  | [e] => do
    match ← k.expr e with
    | .list items _ opened => inside opened (k.call items)
    | v => pure v
  | operands => raise (.argumentCount (.exactly 1) operands.length)

def binding (k : StampedLevel) : List Value → Stamped Value
  | [.list [.symbol name, e] _ _, body] => do
    let v ← k.expr e
    within (.ofList [(name, v)]) (k.body body)
  | [.list [target, _] _ _, _] => raise (.bindingTarget target)
  | [.list items _ _, _] => raise (.argumentCount (.exactly 2) items.length)
  | [v, _] => raise (.bindingNotList v)
  | operands => raise (.argumentCount (.exactly 2) operands.length)

def definition (k : StampedLevel) : List Value → Stamped Value
  | [.symbol name, e] => do
    let v ← k.expr e
    modify (·.define name v)
    return v
  | [target, _] => raise (.definitionTarget target)
  | operands => raise (.argumentCount (.exactly 2) operands.length)

def functionDefinition : List Value → Stamped Value
  | [.symbol name, .list params _ _, body] => do
    let names ← ofExcept (paramNames [] params)
    modifyGet (·.defineFunction name names body)
  | [.symbol _, params, _] => raise (.paramsNotList params)
  | [name, _, _] => raise (.functionName name)
  | operands => raise (.argumentCount (.exactly 3) operands.length)

def special (k : StampedLevel) (form : SpecialForm) (operands : List Value) : Stamped Value :=
  match form with
  | .sequence => k.sequence .nil operands
  | .conditional => k.conditional operands
  | .choice => k.choice none operands
  | .evaluation => k.evaluation operands
  | .binding => k.binding operands
  | .definition => k.definition operands
  | .functionDefinition => functionDefinition operands

def run (k : StampedLevel) : List Value → Stamped Value
  | [] => pure .nil
  | head :: operands => do
    match ← k.expr head with
    | .special form => k.special form operands
    | .native h n => do
      let args ← k.exprs operands
      k.apply (.native h n) args
    | .lambda h body captured => do
      let args ← k.exprs operands
      k.apply (.lambda h body captured) args
    | v => if operands.isEmpty then pure v else raise (.notCallable v)

def exprAt (call : List Value → Stamped Value) (depth : Nat) (e : Value) : Stamped Value :=
  match depth, e with
  | 0, _ => raise .depthExceeded
  | _ + 1, .symbol name => resolve name
  | _ + 1, .list items false opened => inside opened (call items)
  | _ + 1, v => pure v

def callAt : Nat → List Value → Stamped Value
  | 0, [] => pure .nil
  | 0, _ :: _ => raise .depthExceeded
  | depth + 1, items => run ⟨exprAt (callAt depth) depth, callAt depth⟩ items

def ofDepth (depth : Nat) : StampedLevel := ⟨exprAt (callAt depth) depth, callAt depth⟩

end StampedLevel

theorem Error.orAt_orAt (p q : Option Position) (err : Error) :
    (err.orAt p).orAt q = err.orAt (p <|> q) := by
  cases err with
  | running e =>
    obtain ⟨cause, position⟩ := e
    cases position <;> rfl
  | _ => rfl

open Eval

namespace Stamped

variable {α β : Type}

/-- In any lists, `s` ends as `e` does once an error of `e` has got the position of the innermost. -/
def Stamps (s : Stamped α) (e : Eval α) : Prop :=
  ∀ trace m, exec (s trace) m = exec (located trace.innermost e) m

theorem stamps_pure (a : α) : Stamps (pure a) (pure a) := fun _ _ => rfl

theorem stamps_get : Stamps get get := fun _ _ => rfl

theorem stamps_modify (f : Machine → Machine) : Stamps (modify f) (modify f) := fun _ _ => rfl

theorem stamps_modifyGet (f : Machine → α × Machine) : Stamps (modifyGet f) (modifyGet f) :=
  fun _ _ => rfl

theorem stamps_raise (c : Cause) : Stamps (raise c : Stamped α) (fail c) := fun _ _ => rfl

theorem stamps_ofExcept (r : Except Cause α) : Stamps (ofExcept r) (Eval.ofExcept r) := by
  cases r with
  | ok a => exact stamps_pure a
  | error c => exact stamps_raise c

theorem stamps_bind {s : Stamped α} {e : Eval α} {f : α → Stamped β} {g : α → Eval β}
    (h : Stamps s e) (hf : ∀ a, Stamps (f a) (g a)) : Stamps (s >>= f) (e >>= g) := by
  intro trace m
  change exec (s trace >>= fun a => f a trace) m = _
  rw [exec_bind, h, exec_located, exec_located, exec_bind]
  generalize exec e m = r
  obtain ⟨r, m'⟩ := r
  cases r with
  | ok a => exact hf a trace m'
  | error err => rfl

theorem stamps_perform (op : Op α) : Stamps (perform op) (Eval.perform op) := by
  intro trace m
  change exec (ofExcept (op m.world).1 trace) { m with world := (op m.world).2 } = _
  rw [stamps_ofExcept, exec_located, exec_located, exec_perform]
  cases (op m.world).1 <;> rfl

theorem stamps_resolve (name : String) : Stamps (resolve name) (Eval.resolve name) :=
  stamps_bind stamps_get fun m => stamps_ofExcept (m.resolve name)

/-- A list that an error passes on its way out comes before those around it. -/
theorem stamps_inside (opened : Option Position) {s : Stamped α} {e : Eval α} (h : Stamps s e) :
    Stamps (inside opened s) (located opened e) := by
  intro trace m
  change exec (s (opened :: trace)) m = _
  rw [h, Trace.innermost_cons, exec_located, exec_located, exec_located]
  generalize exec e m = r
  obtain ⟨r, m'⟩ := r
  cases r with
  | ok a => rfl
  | error err => exact congrArg (fun err => (Except.error err, m')) (err.orAt_orAt _ _).symm

/-- Leaving a scope does not fail for a cause that the program has, so it is not stamped. -/
theorem stamps_within (bindings : Bindings Value) {s : Stamped α} {e : Eval α} (h : Stamps s e) :
    Stamps (within bindings s) (Eval.within bindings e) := by
  intro trace m
  change exec (Eval.within bindings (s trace)) m = _
  rw [exec_within, h, exec_located, exec_located, exec_within]
  generalize exec e (m.enter bindings) = r
  obtain ⟨r, m'⟩ := r
  cases hleave : m'.leave? with
  | some m'' => rw [exec_leave_some hleave]; rfl
  | none => rw [exec_leave_none hleave]; rfl

theorem stamps_calling (scope : ScopeId) (bindings : Bindings Value) {s : Stamped α} {e : Eval α}
    (h : Stamps s e) : Stamps (calling scope bindings s) (Eval.calling scope bindings e) := by
  intro trace m
  change exec (Eval.calling scope bindings (s trace)) m = _
  rw [exec_calling, h, exec_located, exec_located, exec_calling]

end Stamped

structure StampedLevel.Stamps (k' : StampedLevel) (k : Level) : Prop where
  expr : ∀ e, Stamped.Stamps (k'.expr e) (k.expr e)
  call : ∀ items, Stamped.Stamps (k'.call items) (k.call items)

namespace StampedLevel

open Stamped

theorem stamps_condition (form : SpecialForm) (v : Value) :
    Stamped.Stamps (condition form v) (Level.condition form v) := by
  cases v with
  | bool b => exact stamps_pure b
  | _ => exact stamps_raise _

theorem stamps_functionDefinition (operands : List Value) :
    Stamped.Stamps (functionDefinition operands) (Level.functionDefinition operands) := by
  unfold functionDefinition
  split
  · exact stamps_bind (stamps_ofExcept _) fun names => stamps_modifyGet _
  all_goals
    rw [Level.functionDefinition]
    · exact stamps_raise _
    all_goals assumption

section

variable {k' : StampedLevel} {k : Level} (h : k'.Stamps k)
include h

theorem stamps_body (v : Value) : Stamped.Stamps (k'.body v) (k.body v) := by
  cases v with
  | list items quoted opened => exact stamps_inside opened (h.call items)
  | _ => exact h.expr _

theorem stamps_exprs (es : List Value) : Stamped.Stamps (k'.exprs es) (k.exprs es) := by
  induction es with
  | nil => exact stamps_pure []
  | cons e es ih => exact stamps_bind (h.expr e) fun v => stamps_bind ih fun vs => stamps_pure _

theorem stamps_apply (f : Value) (args : List Value) :
    Stamped.Stamps (k'.apply f args) (k.apply f args) := by
  cases f with
  | native header n =>
    exact stamps_bind (stamps_ofExcept _) fun vs =>
      stamps_bind stamps_get fun m => stamps_perform _
  | lambda header body captured =>
    exact stamps_bind (stamps_ofExcept _) fun bindings =>
      stamps_bind stamps_get fun m => stamps_calling _ _ (stamps_body h body)
  | _ => exact stamps_raise _

theorem stamps_sequence (last : Value) (es : List Value) :
    Stamped.Stamps (k'.sequence last es) (k.sequence last es) := by
  induction es generalizing last with
  | nil => exact stamps_pure last
  | cons e es ih => exact stamps_bind (h.expr e) fun v => ih v

theorem stamps_conditional (operands : List Value) :
    Stamped.Stamps (k'.conditional operands) (k.conditional operands) := by
  unfold conditional
  split
  · refine stamps_bind (h.expr _) fun v => stamps_bind (stamps_condition _ v) fun b => ?_
    cases b
    · exact stamps_pure _
    · exact h.expr _
  · refine stamps_bind (h.expr _) fun v => stamps_bind (stamps_condition _ v) fun b => ?_
    cases b
    · exact h.expr _
    · exact h.expr _
  · rw [Level.conditional]
    · exact stamps_raise _
    all_goals assumption

theorem stamps_choice (fallback : Option Value) (bs : List Value) :
    Stamped.Stamps (k'.choice fallback bs) (k.choice fallback bs) := by
  induction bs generalizing fallback with
  | nil =>
    cases fallback with
    | none => exact stamps_pure _
    | some result => exact h.expr result
  | cons b bs ih =>
    rw [choice, Level.choice]
    cases Level.branch? b with
    | none => exact stamps_raise _
    | some branch =>
      obtain ⟨test, result⟩ := branch
      refine stamps_bind (h.expr test) fun v => ?_
      cases Level.isElse v with
      | true => exact ih _
      | false =>
        refine stamps_bind (stamps_condition _ v) fun holds => ?_
        cases holds
        · exact ih _
        · exact h.expr result

theorem stamps_evaluation (operands : List Value) :
    Stamped.Stamps (k'.evaluation operands) (k.evaluation operands) := by
  unfold evaluation
  split
  · refine stamps_bind (h.expr _) fun v => ?_
    cases v with
    | list items quoted opened => exact stamps_inside opened (h.call items)
    | _ => exact stamps_pure _
  · rw [Level.evaluation]
    · exact stamps_raise _
    · assumption

theorem stamps_binding (operands : List Value) :
    Stamped.Stamps (k'.binding operands) (k.binding operands) := by
  unfold binding
  split
  · exact stamps_bind (h.expr _) fun v => stamps_within _ (stamps_body h _)
  all_goals
    rw [Level.binding]
    · exact stamps_raise _
    all_goals assumption

theorem stamps_definition (operands : List Value) :
    Stamped.Stamps (k'.definition operands) (k.definition operands) := by
  unfold definition
  split
  · exact stamps_bind (h.expr _) fun v => stamps_bind (stamps_modify _) fun _ => stamps_pure v
  all_goals
    rw [Level.definition]
    · exact stamps_raise _
    all_goals assumption

theorem stamps_special (form : SpecialForm) (operands : List Value) :
    Stamped.Stamps (k'.special form operands) (k.special form operands) := by
  cases form with
  | sequence => exact stamps_sequence h _ operands
  | conditional => exact stamps_conditional h operands
  | choice => exact stamps_choice h none operands
  | evaluation => exact stamps_evaluation h operands
  | binding => exact stamps_binding h operands
  | definition => exact stamps_definition h operands
  | functionDefinition => exact stamps_functionDefinition operands

theorem stamps_run (items : List Value) : Stamped.Stamps (k'.run items) (k.run items) := by
  cases items with
  | nil => exact stamps_pure _
  | cons head operands =>
    refine stamps_bind (h.expr head) fun v => ?_
    cases v with
    | special form => exact stamps_special h form operands
    | native header n =>
      exact stamps_bind (stamps_exprs h operands) fun args => stamps_apply h _ args
    | lambda header body captured =>
      exact stamps_bind (stamps_exprs h operands) fun args => stamps_apply h _ args
    | _ =>
      cases operands with
      | nil => exact stamps_pure _
      | cons => exact stamps_raise _

end

theorem stamps_exprAt {call' : List Value → Stamped Value} {call : List Value → Eval Value}
    (h : ∀ items, Stamped.Stamps (call' items) (call items)) (depth : Nat) (e : Value) :
    Stamped.Stamps (exprAt call' depth e) (Level.exprAt call depth e) := by
  cases depth with
  | zero => exact stamps_raise _
  | succ depth =>
    cases e with
    | symbol name => exact stamps_resolve name
    | list items quoted opened =>
      cases quoted with
      | false => exact stamps_inside opened (h items)
      | true => exact stamps_pure _
    | _ => exact stamps_pure _

/-- The induction is on the levels left; each list run uses one. -/
theorem stamps_callAt (depth : Nat) (items : List Value) :
    Stamped.Stamps (callAt depth items) (Level.callAt depth items) := by
  induction depth generalizing items with
  | zero =>
    cases items with
    | nil => exact stamps_pure _
    | cons => exact stamps_raise _
  | succ depth ih => exact stamps_run ⟨stamps_exprAt ih depth, ih⟩ items

theorem stamps_ofDepth (depth : Nat) : (ofDepth depth).Stamps (Level.ofDepth depth) :=
  ⟨stamps_exprAt (stamps_callAt depth) depth, stamps_callAt depth⟩

end StampedLevel

/-! Programs. -/

theorem Machine.resolve_error {m : Machine} {name : String} {c : Cause} (h : m.resolve name = .error c) :
    c = .unbound name := by
  unfold Machine.resolve at h
  split at h
  · cases h
  · split at h
    · cases h
    · split at h
      · cases h
      · exact (Except.error.inj h).symm

theorem opened_of_readForms {config : ReaderConfig} {source : String} {before after : List Value}
    {items : List Value} {quoted : Bool} {opened : Option Position}
    (h : readForms config source = .ok (before ++ .list items quoted opened :: after)) :
    ∃ p, opened = some p := by
  have hjudged := Layout.judged_ofText config source
  rw [formsOfTokens_eq_ok_iff.1 h] at hjudged
  have hnodes := hjudged.nodes
  rw [nodes_of_closed, Value.listNodes, Value.nodesOf_append, Value.nodesOf, Value.nodes] at hnodes
  have hmem : (quoted, opened) ∈
      (Layout.openings (Layout.ofText config.comments source)).map fun o => (o.1, some o.2) := by
    rw [← hnodes]
    simp
  obtain ⟨o, -, ho⟩ := List.mem_map.1 hmem
  exact ⟨o.2, (Prod.mk.inj ho).2.symm⟩

namespace Eval

/-- A program fails in the first form that fails, on the machine that the forms before it leave. -/
theorem exec_forms_error {last : Option Value} {es : List Value} {m m' : Machine} {err : Error}
    (h : exec (forms last es) m = (.error err, m')) :
    ∃ before form after last' m₁, es = before ++ form :: after ∧
      exec (forms last before) m = (.ok last', m₁) ∧
      exec (expression form) m₁ = (.error err, m') := by
  induction es generalizing last m with
  | nil => cases h
  | cons e es ih =>
    rw [forms, exec_bind] at h
    cases hfirst : exec (expression e) m with
    | mk r m₁ =>
      rw [hfirst] at h
      cases r with
      | error err' =>
        cases h
        exact ⟨[], e, es, last, m, rfl, rfl, hfirst⟩
      | ok v =>
        obtain ⟨before, form, after, last', m₂, rfl, hbefore, hform⟩ := ih h
        refine ⟨e :: before, form, after, last', m₂, rfl, ?_, hform⟩
        rw [forms, exec_bind, hfirst, continueWith_ok, hbefore]

theorem position_of_located {α : Type} {p : Position} {e : Eval α} {m m' : Machine} {err : RuntimeError}
    (h : exec (located (some p) e) m = (.error (.running err), m')) : err.position ≠ none := by
  rw [exec_located] at h
  generalize exec e m = r at h
  obtain ⟨r, m₁⟩ := r
  cases r with
  | ok a => cases h
  | error err' =>
    cases err' with
    | running e =>
      obtain ⟨cause, position⟩ := e
      cases h
      cases position <;> simp
    | _ => cases h

/-- Symbols and lists are all that fails, and a list that has a position gives it to its error. -/
theorem position_of_expression {form : Value} {m m' : Machine} {err : RuntimeError}
    (hlist : ∀ items quoted opened, form = .list items quoted opened → ∃ p, opened = some p)
    (h : exec (expression form) m = (.error (.running err), m')) :
    err.position = none ↔ ∃ name, form = .symbol name ∧ m.resolve name = .error (.unbound name) := by
  cases form with
  | symbol name =>
    change exec (Eval.ofExcept (m.resolve name)) m = _ at h
    cases hname : m.resolve name with
    | ok v =>
      rw [hname] at h
      cases h
    | error c =>
      rw [hname] at h
      obtain rfl := Machine.resolve_error hname
      cases h
      exact ⟨fun _ => ⟨name, rfl, hname⟩, fun _ => rfl⟩
  | list items quoted opened =>
    obtain ⟨p, rfl⟩ := hlist items quoted opened rfl
    cases quoted with
    | true => cases h
    | false =>
      have hposition : err.position ≠ none := position_of_located h
      simp [hposition]
  | _ => cases h

end Eval

/-- Errors point at the innermost list. Evaluation ends just as stamping evaluation does, which gives each
error, when it raises it, the position of the innermost list under evaluation that has one. So a runtime
error of a program has no position if and only if the form that fails is an unbound symbol. -/
theorem errors_point_innermost (m : Machine) :
    (∀ (depth : Nat) (e : Value), exec ((Level.ofDepth depth).expr e) m =
      exec ((StampedLevel.ofDepth depth).expr e []) m) ∧
    (∀ (p : Option Position) (e : Eval Value),
      (exec (located p e) m).1.mapError Error.said = (exec e m).1.mapError Error.said ∧
      (exec (located p e) m).2 = (exec e m).2) ∧
    ∀ (source : String) (err : RuntimeError), (m.run source).1 = .error (.running err) →
      ∃ before form after last m', readForms m.config source = .ok (before ++ form :: after) ∧
        exec (forms none before) m = (.ok last, m') ∧
        exec (expression form) m' = (.error (.running err), (m.run source).2) ∧
        (err.position = none ↔
          ∃ name, form = .symbol name ∧ m'.resolve name = .error (.unbound name)) := by
  refine ⟨fun depth e => ?_, fun p e => ?_, fun source err hrun => ?_⟩
  · rw [(StampedLevel.stamps_ofDepth depth).expr e, Trace.innermost_nil, exec_located_none]
  · rw [exec_located]
    generalize exec e m = r
    obtain ⟨r, m'⟩ := r
    cases r with
    | ok a => exact ⟨rfl, rfl⟩
    | error err => exact ⟨congrArg Except.error (err.said_orAt p), rfl⟩
  · cases hread : readForms m.config source with
    | error e =>
      rw [Machine.run_eq_error hread] at hrun
      cases hrun
    | ok vs =>
      have hforms : exec (forms none vs) m = (.error (.running err), (m.run source).2) := by
        rw [← hrun, ← Machine.run_eq_exec hread]
      obtain ⟨before, form, after, last, m', rfl, hbefore, hform⟩ := exec_forms_error hforms
      refine ⟨before, form, after, last, m', rfl, hbefore, hform, position_of_expression ?_ hform⟩
      rintro items quoted opened rfl
      exact opened_of_readForms hread

/-- A symbol that is not bound, in a list that is data until `eval` runs it: the error points at the
data. The symbol alone is a program whose error has no position. -/
theorem errors_point_innermost_data :
    let m := Machine.new {} fun _ => 0
    let data := Value.list [.symbol "do", .symbol "y"] true (some ⟨2, 2⟩)
    (exec ((Level.ofDepth 3).expr (.list [.symbol "eval", data] false (some ⟨1, 1⟩))) m).1 =
      .error (.running ⟨.unbound "y", some ⟨2, 2⟩⟩) ∧
    ∃ err, (m.run "y").1 = .error (.running err) ∧ err.position = none := by
  intro m data
  obtain ⟨hstamped, -, hprograms⟩ := errors_point_innermost m
  constructor
  · rw [hstamped]
    rfl
  · have hread : readForms m.config "y" = .ok [.symbol "y"] := by decide +kernel
    have hrun : (m.run "y").1 = .error (.running ⟨.unbound "y", none⟩) := by
      rw [Machine.run_eq_exec hread]
      rfl
    obtain ⟨before, form, after, last, m', hforms, hbefore, -, hposition⟩ := hprograms "y" _ hrun
    obtain ⟨rfl, rfl, rfl⟩ : before = [] ∧ form = .symbol "y" ∧ after = [] := by
      simpa [hread, List.cons_eq_append_iff] using hforms
    cases hbefore
    exact ⟨_, hrun, hposition.2 ⟨"y", rfl, rfl⟩⟩

end MiniLisp
