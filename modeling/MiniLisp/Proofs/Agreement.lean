import MiniLisp.Proofs.Blindness
import MiniLisp.Shell.Repl

/-! Positions serve diagnostics only. Two machines that differ in positions at most stay so when similar
expressions are evaluated on them, and the outcomes agree: similar values, or errors that say the same,
though perhaps of other places. `Agrees` says this of two evaluations; every way of building evaluations
keeps it, so each part of the evaluator keeps it, and an induction on the levels left gives it for the
whole. Positions reach an error through `located` alone, which changes nothing that an error says. -/

namespace MiniLisp

open Value

def Error.said (err : Error) : Option ErrorKind × String := (err.kind?, err.message)

theorem Error.said_orAt (p : Option Position) (err : Error) : (err.orAt p).said = err.said := by
  cases err <;> rfl

theorem Error.said_ofCause {c c' : Cause} (h : c.said = c'.said) :
    (Error.ofCause c).said = (Error.ofCause c').said := by
  obtain ⟨hkind, hmessage⟩ := Prod.mk.inj h
  exact congrArg₂ Prod.mk (congrArg some hkind) hmessage

theorem Agree.value_or_error {α : Type} {R : α → α → Prop} {r r' : Except Error α}
    (h : Agree Error.said R r r') :
    (∃ a a', r = .ok a ∧ r' = .ok a' ∧ R a a') ∨
      ∃ err err', r = .error err ∧ r' = .error err' ∧
        err.kind? = err'.kind? ∧ err.message = err'.message := by
  cases h with
  | ok ha => exact Or.inl ⟨_, _, rfl, rfl, ha⟩
  | error herr =>
    obtain ⟨hkind, hmessage⟩ := Prod.mk.inj herr
    exact Or.inr ⟨_, _, rfl, rfl, hkind, hmessage⟩

/-- The machines differ in positions at most, and no operation of the host sees these. -/
structure Twins (m m' : Machine) : Prop where
  bare : m.bare = m'.bare
  blind : ∀ op ∈ m.hostOperations, Blind op

section

variable {m m' : Machine} (h : Twins m m')
include h

theorem Twins.current : m.current = m'.current := (congrArg Machine.current h.bare :)

theorem Twins.global : m.global = m'.global := (congrArg Machine.global h.bare :)

theorem Twins.world : m.world = m'.world := (congrArg Machine.world h.bare :)

theorem Twins.hostOperations : m.hostOperations = m'.hostOperations :=
  (congrArg Machine.hostOperations h.bare :)

theorem Twins.define (name : String) {v v' : Value} (hv : Similar v v') :
    Twins (m.define name v) (m'.define name v') := by
  refine ⟨?_, h.blind⟩
  rw [m.bare_define, m'.bare_define, h.bare, hv]

theorem Twins.enter {b b' : Bindings Value} (hb : b.map Value.bare = b'.map Value.bare) :
    Twins (m.enter b) (m'.enter b') := by
  refine ⟨?_, h.blind⟩
  rw [m.bare_enter, m'.bare_enter, h.bare, hb]

theorem Twins.goTo (id : ScopeId) : Twins { m with current := id } { m' with current := id } :=
  ⟨(congrArg (fun m : Machine => { m with current := id }) h.bare :), h.blind⟩

theorem Twins.live (w : World) : Twins { m with world := w } { m' with world := w } :=
  ⟨(congrArg (fun m : Machine => { m with world := w }) h.bare :), h.blind⟩

theorem Twins.defineFunction (name : String) (params : List String) {body body' : Value}
    (hbody : Similar body body') :
    Similar (m.defineFunction name params body).1 (m'.defineFunction name params body').1 ∧
      Twins (m.defineFunction name params body).2 (m'.defineFunction name params body').2 := by
  have heq := m.bare_defineFunction name params body
  rw [hbody, h.bare, m'.bare_defineFunction] at heq
  obtain ⟨hf, hm⟩ := Prod.mk.inj heq
  exact ⟨hf.symm, hm.symm, h.blind⟩

theorem Twins.operation (n : Native) : m.operation n = m'.operation n ∧ Blind (m.operation n) := by
  cases n with
  | builtin b => exact ⟨rfl, b.blind_run⟩
  | host slot =>
    simp only [Machine.operation, ← h.hostOperations, true_and]
    cases hslot : m.hostOperations[slot]? with
    | none => exact fun _ _ _ => Op.agrees_refl _
    | some op => exact h.blind op (Array.mem_of_getElem? hslot)

end

namespace Eval

variable {α β : Type} {R : α → α → Prop} {S : β → β → Prop}

/-- From twin machines both end in agreement, and on twins again. -/
def Agrees (R : α → α → Prop) (e e' : Eval α) : Prop :=
  ∀ m m', Twins m m' → Agree Error.said R (exec e m).1 (exec e' m').1 ∧
    Twins (exec e m).2 (exec e' m').2

theorem agrees_pure {a a' : α} (h : R a a') : Agrees R (pure a) (pure a') := fun _ _ hm =>
  ⟨.ok h, hm⟩

theorem agrees_get : Agrees Twins get get := fun _ _ hm => ⟨.ok hm, hm⟩

theorem agrees_fail {c c' : Cause} (h : c.said = c'.said) : Agrees R (fail c) (fail c') :=
  fun _ _ hm => ⟨.error (Error.said_ofCause h), hm⟩

theorem agrees_fail_about {v v' : Value} (h : Similar v v') {c : Value → Cause}
    (hc : ∀ v, (c v).bare = c v.bare) : Agrees R (fail (c v)) (fail (c v')) :=
  agrees_fail (Cause.said_of_bare (by rw [hc, h, hc]))

theorem agrees_ofExcept {r r' : Except Cause α} (h : Agree Cause.said R r r') :
    Agrees R (ofExcept r) (ofExcept r') := by
  cases h with
  | ok ha => exact agrees_pure ha
  | error hc => exact agrees_fail hc

theorem agrees_bind {e e' : Eval α} {f f' : α → Eval β} (he : Agrees R e e')
    (hf : ∀ a a', R a a' → Agrees S (f a) (f' a')) : Agrees S (e >>= f) (e' >>= f') := by
  intro m m' hm
  obtain ⟨hout, htwins⟩ := he m m' hm
  rw [exec_bind, exec_bind]
  generalize exec e m = r at hout htwins
  generalize exec e' m' = r' at hout htwins
  obtain ⟨r, m₁⟩ := r
  obtain ⟨r', m₁'⟩ := r'
  cases hout with
  | ok ha => exact hf _ _ ha m₁ m₁' htwins
  | error herr => exact ⟨.error herr, htwins⟩

theorem agrees_located (p p' : Option Position) {e e' : Eval α} (he : Agrees R e e') :
    Agrees R (located p e) (located p' e') := by
  intro m m' hm
  obtain ⟨hout, htwins⟩ := he m m' hm
  rw [exec_located, exec_located]
  refine ⟨?_, htwins⟩
  generalize (exec e m).1 = r at hout
  generalize (exec e' m').1 = r' at hout
  cases hout with
  | ok ha => exact .ok ha
  | error herr =>
    refine .error ?_
    rw [Error.said_orAt, Error.said_orAt, herr]

theorem agrees_perform {op op' : Op α} (h : Op.Agrees R op op') :
    Agrees R (perform op) (perform op') := by
  intro m m' hm
  obtain ⟨hout, hworld⟩ := h m.world
  rw [exec_perform, exec_perform, ← hm.world, ← hworld]
  refine ⟨?_, hm.live _⟩
  generalize (op m.world).1 = r at hout
  generalize (op' m.world).1 = r' at hout
  cases hout with
  | ok ha => exact .ok ha
  | error hc => exact .error (Error.said_ofCause hc)

theorem agrees_resolve (name : String) : Agrees Similar (resolve name) (resolve name) := by
  refine agrees_bind agrees_get fun m m' hm => agrees_ofExcept ?_
  have heq := m.bare_resolve name
  rw [hm.bare, m'.bare_resolve] at heq
  generalize m.resolve name = r at heq
  generalize m'.resolve name = r' at heq
  cases r with
  | ok v =>
    cases r' with
    | ok v' => exact .ok (Except.ok.inj heq).symm
    | error c' => cases heq
  | error c =>
    cases r' with
    | ok v' => cases heq
    | error c' => exact .error (congrArg Cause.said (Except.error.inj heq).symm)

theorem agrees_leave : Agrees (fun _ _ => True) leave leave := by
  intro m m' hm
  have heq := m.bare_leave?
  rw [hm.bare, m'.bare_leave?] at heq
  cases hl : m.leave? with
  | none =>
    have hl' : m'.leave? = none := by simpa [hl] using heq
    rw [exec_leave_none hl, exec_leave_none hl']
    exact ⟨.error rfl, hm⟩
  | some n =>
    obtain ⟨n', hl', hbare⟩ : ∃ n', m'.leave? = some n' ∧ n'.bare = n.bare := by
      simpa [hl] using heq
    have hops : n.hostOperations = m.hostOperations := by
      unfold Machine.leave? at hl
      split at hl
      · cases hl
        rfl
      · cases hl
    rw [exec_leave_some hl, exec_leave_some hl']
    exact ⟨.ok trivial, hbare.symm, hops ▸ hm.blind⟩

theorem agrees_outcome {e e' : Eval α} (he : Agrees R e e') :
    Agrees (Agree Error.said R) (outcome e) (outcome e') := by
  intro m m' hm
  obtain ⟨hout, htwins⟩ := he m m' hm
  rw [exec_outcome, exec_outcome]
  exact ⟨.ok hout, htwins⟩

theorem agrees_ofOutcome {r r' : Except Error α} (h : Agree Error.said R r r') :
    Agrees R (ofOutcome r) (ofOutcome r') := fun _ _ hm => ⟨h, hm⟩

theorem agrees_modify {f f' : Machine → Machine} (h : ∀ m m', Twins m m' → Twins (f m) (f' m')) :
    Agrees (fun _ _ => True) (modify f) (modify f') := fun m m' hm =>
  ⟨.ok trivial, h m m' hm⟩

section

variable {b b' : Bindings Value} (hb : b.map Value.bare = b'.map Value.bare) {e e' : Eval α}
  (he : Agrees R e e')
include hb he

theorem agrees_within : Agrees R (within b e) (within b' e') := by
  unfold within
  refine agrees_bind (agrees_modify fun m m' hm => hm.enter hb) fun _ _ _ => ?_
  refine agrees_bind (agrees_outcome he) fun r r' hr => ?_
  exact agrees_bind agrees_leave fun _ _ _ => agrees_ofOutcome hr

theorem agrees_calling (scope : ScopeId) : Agrees R (calling scope b e) (calling scope b' e') := by
  unfold calling
  refine agrees_bind agrees_get fun m m' hm => ?_
  refine agrees_bind (agrees_modify fun m m' hm => (hm.goTo scope).enter hb) fun _ _ _ => ?_
  refine agrees_bind (agrees_outcome he) fun r r' hr => ?_
  rw [hm.current]
  exact agrees_bind (agrees_modify fun _ _ h => h.goTo _) fun _ _ _ => agrees_ofOutcome hr

end
end Eval

theorem map_ofList_congr {bs bs' : List (String × Value)}
    (h : bs.map (Bindings.mapEntry Value.bare) = bs'.map (Bindings.mapEntry Value.bare)) :
    (Bindings.ofList bs).map Value.bare = (Bindings.ofList bs').map Value.bare := by
  rw [Bindings.map_ofList, Bindings.map_ofList, h]

namespace Level

open Eval

structure Agrees (k : Level) : Prop where
  expr : ∀ {e e' : Value}, Similar e e' → Eval.Agrees Similar (k.expr e) (k.expr e')
  call : ∀ {items items' : List Value}, List.Forall₂ Similar items items' →
    Eval.Agrees Similar (k.call items) (k.call items')

theorem agrees_condition (form : SpecialForm) {v v' : Value} (h : Similar v v') :
    Eval.Agrees Eq (condition form v) (condition form v') := by
  cases h.paired with
  | bool b => exact agrees_pure rfl
  | _ => exact agrees_fail_about h fun _ => rfl

theorem agrees_count {arity : Arity} {vs vs' : List Value} (h : List.Forall₂ Similar vs vs') :
    Eval.Agrees Similar (fail (.argumentCount arity vs.length))
      (fail (.argumentCount arity vs'.length)) := by
  rw [h.length_eq]
  exact agrees_fail rfl

theorem isElse_of_similar {v v' : Value} (h : Similar v v') : isElse v = isElse v' := by
  cases h.paired <;> rfl

theorem branch?_of_similar {b b' : Value} (h : Similar b b') :
    branch? b = none ∧ branch? b' = none ∨
      ∃ test result test' result', branch? b = some (test, result) ∧
        branch? b' = some (test', result') ∧ Similar test test' ∧ Similar result result' := by
  cases h.paired with
  | list quoted opened opened' hitems =>
    match hitems with
    | .nil => exact Or.inl ⟨rfl, rfl⟩
    | .cons _ .nil => exact Or.inl ⟨rfl, rfl⟩
    | .cons ht (.cons hr .nil) => exact Or.inr ⟨_, _, _, _, rfl, rfl, ht, hr⟩
    | .cons _ (.cons _ (.cons _ _)) => exact Or.inl ⟨rfl, rfl⟩
  | _ => exact Or.inl ⟨rfl, rfl⟩

theorem agree_paramNames {params params' : List Value} (h : List.Forall₂ Similar params params')
    (seen : List String) :
    Agree Cause.said Eq (paramNames seen params) (paramNames seen params') := by
  induction h generalizing seen with
  | nil => exact .ok rfl
  | @cons p p' ps ps' hp _ ih =>
    cases hp.paired with
    | symbol name =>
      unfold paramNames
      split_ifs
      · exact .error rfl
      · exact (ih _).bind fun names names' hnames => .ok (congrArg (name :: ·) hnames)
    | _ => exact .error (Cause.said_of_bare (congrArg Cause.paramNotSymbol hp))

theorem functionDefinition_of_length {operands : List Value} (h : operands.length ≠ 3) :
    functionDefinition operands = fail (.argumentCount (.exactly 3) operands.length) := by
  unfold functionDefinition
  split
  · exact absurd rfl h
  · exact absurd rfl h
  · exact absurd rfl h
  · rfl

theorem agrees_functionDefinition {operands operands' : List Value}
    (h : List.Forall₂ Similar operands operands') :
    Eval.Agrees Similar (functionDefinition operands) (functionDefinition operands') := by
  by_cases hlen : operands.length = 3
  · obtain ⟨name, params, body, rfl⟩ := List.length_eq_three.1 hlen
    obtain _ | ⟨hname, _ | ⟨hparams, _ | ⟨hbody, _ | _⟩⟩⟩ := h
    cases hname.paired with
    | symbol name =>
      cases hparams.paired with
      | list _ _ _ hitems =>
        refine agrees_bind (agrees_ofExcept (agree_paramNames hitems [])) ?_
        rintro names _ rfl m m' hm
        obtain ⟨hf, htwins⟩ := hm.defineFunction name names hbody
        exact ⟨.ok hf, htwins⟩
      | _ => exact agrees_fail_about hparams (c := .paramsNotList) fun _ => rfl
    | _ => exact agrees_fail_about hname (c := .functionName) fun _ => rfl
  · rw [functionDefinition_of_length hlen, functionDefinition_of_length (h.length_eq ▸ hlen)]
    exact agrees_count h

section

variable {k : Level} (hk : k.Agrees)
include hk

theorem agrees_body {v v' : Value} (h : Similar v v') :
    Eval.Agrees Similar (k.body v) (k.body v') := by
  cases h.paired with
  | list _ opened opened' hitems => exact agrees_located opened opened' (hk.call hitems)
  | _ => exact hk.expr h

theorem agrees_exprs {es es' : List Value} (h : List.Forall₂ Similar es es') :
    Eval.Agrees (List.Forall₂ Similar) (k.exprs es) (k.exprs es') := by
  induction h with
  | nil => exact agrees_pure .nil
  | cons he _ ih =>
    refine agrees_bind (hk.expr he) fun v v' hv => ?_
    exact agrees_bind ih fun vs vs' hvs => agrees_pure (.cons hv hvs)

theorem agrees_apply {f f' : Value} (hf : Similar f f') {args args' : List Value}
    (hargs : List.Forall₂ Similar args args') :
    Eval.Agrees Similar (k.apply f args) (k.apply f' args') := by
  cases hf.paired with
  | native h n =>
    refine agrees_bind (agrees_ofExcept (agree_bindArguments hargs h.params)) fun vs vs' hvs => ?_
    refine agrees_bind agrees_get fun m m' hm => ?_
    obtain ⟨hsame, hblind⟩ := hm.operation n
    rw [← hsame]
    exact agrees_perform (hblind vs vs' hvs)
  | lambda h captured hbody =>
    refine agrees_bind (agrees_ofExcept (agree_suppliedArguments hargs h.params)) fun bs bs' hbs => ?_
    refine agrees_bind agrees_get fun m m' hm => ?_
    rw [← hm.global]
    exact agrees_calling (map_ofList_congr hbs) (agrees_body hk hbody) _
  | _ => exact agrees_fail_about hf fun _ => rfl

theorem agrees_sequence {last last' : Value} (hlast : Similar last last') {es es' : List Value}
    (h : List.Forall₂ Similar es es') :
    Eval.Agrees Similar (k.sequence last es) (k.sequence last' es') := by
  induction h generalizing last last' with
  | nil => exact agrees_pure hlast
  | cons he _ ih => exact agrees_bind (hk.expr he) fun v v' hv => ih hv

theorem agrees_conditional {operands operands' : List Value}
    (h : List.Forall₂ Similar operands operands') :
    Eval.Agrees Similar (k.conditional operands) (k.conditional operands') := by
  match h with
  | .nil => exact agrees_fail rfl
  | .cons _ .nil => exact agrees_fail rfl
  | .cons htest (.cons hyes .nil) =>
    refine agrees_bind (hk.expr htest) fun v v' hv => ?_
    refine agrees_bind (agrees_condition _ hv) ?_
    rintro b _ rfl
    cases b with
    | true => exact hk.expr hyes
    | false => exact agrees_pure rfl
  | .cons htest (.cons hyes (.cons hno .nil)) =>
    refine agrees_bind (hk.expr htest) fun v v' hv => ?_
    refine agrees_bind (agrees_condition _ hv) ?_
    rintro b _ rfl
    cases b with
    | true => exact hk.expr hyes
    | false => exact hk.expr hno
  | .cons h₁ (.cons h₂ (.cons h₃ (.cons h₄ hs))) =>
    exact agrees_count (.cons h₁ (.cons h₂ (.cons h₃ (.cons h₄ hs))))

theorem agrees_choice {fallback fallback' : Option Value}
    (hfallback : Option.Rel Similar fallback fallback') {bs bs' : List Value}
    (h : List.Forall₂ Similar bs bs') :
    Eval.Agrees Similar (k.choice fallback bs) (k.choice fallback' bs') := by
  induction h generalizing fallback fallback' with
  | nil =>
    cases hfallback with
    | none => exact agrees_pure rfl
    | some hresult => exact hk.expr hresult
  | cons hb _ ih =>
    unfold choice
    obtain ⟨hnone, hnone'⟩ | ⟨test, result, test', result', hsome, hsome', htest, hresult⟩ :=
      branch?_of_similar hb
    · rw [hnone, hnone']
      exact agrees_fail_about hb fun _ => rfl
    · rw [hsome, hsome']
      refine agrees_bind (hk.expr htest) fun v v' hv => ?_
      rw [isElse_of_similar hv]
      split_ifs
      · exact ih (.some hresult)
      · refine agrees_bind (agrees_condition _ hv) ?_
        rintro holds _ rfl
        cases holds with
        | true => exact hk.expr hresult
        | false => exact ih hfallback

theorem agrees_evaluation {operands operands' : List Value}
    (h : List.Forall₂ Similar operands operands') :
    Eval.Agrees Similar (k.evaluation operands) (k.evaluation operands') := by
  match h with
  | .nil => exact agrees_fail rfl
  | .cons he .nil =>
    refine agrees_bind (hk.expr he) fun v v' hv => ?_
    cases hv.paired with
    | list _ opened opened' hitems => exact agrees_located opened opened' (hk.call hitems)
    | _ => exact agrees_pure hv
  | .cons h₁ (.cons h₂ hs) => exact agrees_count (.cons h₁ (.cons h₂ hs))

omit hk in
theorem binding_of_length {operands : List Value} (h : operands.length ≠ 2) :
    k.binding operands = fail (.argumentCount (.exactly 2) operands.length) := by
  unfold binding
  split
  · exact absurd rfl h
  · exact absurd rfl h
  · exact absurd rfl h
  · exact absurd rfl h
  · rfl

omit hk in
theorem binding_of_list {items : List Value} (h : items.length ≠ 2) (quoted : Bool)
    (opened : Option Position) (body : Value) :
    k.binding [.list items quoted opened, body] =
      fail (.argumentCount (.exactly 2) items.length) := by
  unfold binding
  split
  · rename_i heq
    cases heq
    exact absurd rfl h
  · rename_i heq
    cases heq
    exact absurd rfl h
  · rename_i heq
    cases heq
    rfl
  · rename_i hother heq
    cases heq
    exact (hother _ _ _ rfl).elim
  · rename_i hother
    exact (hother _ _ rfl).elim

theorem agrees_binding {operands operands' : List Value}
    (h : List.Forall₂ Similar operands operands') :
    Eval.Agrees Similar (k.binding operands) (k.binding operands') := by
  by_cases hlen : operands.length = 2
  · obtain ⟨pair, body, rfl⟩ := List.length_eq_two.1 hlen
    obtain _ | ⟨hpair, _ | ⟨hbody, _ | _⟩⟩ := h
    cases hpair.paired with
    | @list items items' _ _ _ hitems =>
      by_cases htwo : items.length = 2
      · obtain ⟨target, e, rfl⟩ := List.length_eq_two.1 htwo
        obtain _ | ⟨htarget, _ | ⟨he, _ | _⟩⟩ := hitems
        cases htarget.paired with
        | symbol name =>
          refine agrees_bind (hk.expr he) fun v v' hv => ?_
          refine agrees_within (map_ofList_congr ?_) (agrees_body hk hbody)
          exact congrArg (fun v => [(name, v)]) hv
        | _ => exact agrees_fail_about htarget (c := .bindingTarget) fun _ => rfl
      · rw [binding_of_list htwo, binding_of_list (hitems.length_eq ▸ htwo)]
        exact agrees_count hitems
    | _ => exact agrees_fail_about hpair (c := .bindingNotList) fun _ => rfl
  · rw [binding_of_length hlen, binding_of_length (h.length_eq ▸ hlen)]
    exact agrees_count h

omit hk in
theorem definition_of_length {operands : List Value} (h : operands.length ≠ 2) :
    k.definition operands = fail (.argumentCount (.exactly 2) operands.length) := by
  unfold definition
  split
  · exact absurd rfl h
  · exact absurd rfl h
  · rfl

theorem agrees_definition {operands operands' : List Value}
    (h : List.Forall₂ Similar operands operands') :
    Eval.Agrees Similar (k.definition operands) (k.definition operands') := by
  by_cases hlen : operands.length = 2
  · obtain ⟨target, e, rfl⟩ := List.length_eq_two.1 hlen
    obtain _ | ⟨htarget, _ | ⟨he, _ | _⟩⟩ := h
    cases htarget.paired with
    | symbol name =>
      refine agrees_bind (hk.expr he) fun v v' hv => ?_
      exact agrees_bind (agrees_modify fun m m' hm => hm.define name hv) fun _ _ _ => agrees_pure hv
    | _ => exact agrees_fail_about htarget (c := .definitionTarget) fun _ => rfl
  · rw [definition_of_length hlen, definition_of_length (h.length_eq ▸ hlen)]
    exact agrees_count h

theorem agrees_special (form : SpecialForm) {operands operands' : List Value}
    (h : List.Forall₂ Similar operands operands') :
    Eval.Agrees Similar (k.special form operands) (k.special form operands') := by
  cases form with
  | sequence => exact agrees_sequence hk rfl h
  | conditional => exact agrees_conditional hk h
  | choice => exact agrees_choice hk .none h
  | evaluation => exact agrees_evaluation hk h
  | binding => exact agrees_binding hk h
  | definition => exact agrees_definition hk h
  | functionDefinition => exact agrees_functionDefinition h

theorem agrees_run {items items' : List Value} (h : List.Forall₂ Similar items items') :
    Eval.Agrees Similar (k.run items) (k.run items') := by
  cases h with
  | nil => exact agrees_pure rfl
  | @cons head head' operands operands' hhead hoperands =>
    have hempty : operands.isEmpty = operands'.isEmpty := by cases hoperands <;> rfl
    refine agrees_bind (hk.expr hhead) fun v v' hv => ?_
    cases hv.paired with
    | special form => exact agrees_special hk form hoperands
    | native | lambda =>
      exact agrees_bind (agrees_exprs hk hoperands) fun _ _ hargs => agrees_apply hk hv hargs
    | _ =>
      dsimp only
      rw [hempty]
      split_ifs
      · exact agrees_pure hv
      · exact agrees_fail_about hv (c := .notCallable) fun _ => rfl

end

theorem agrees_exprAt {call : List Value → Eval Value}
    (hcall : ∀ items items', List.Forall₂ Similar items items' →
      Eval.Agrees Similar (call items) (call items'))
    (depth : Nat) {e e' : Value} (h : Similar e e') :
    Eval.Agrees Similar (exprAt call depth e) (exprAt call depth e') := by
  cases depth with
  | zero => exact agrees_fail rfl
  | succ depth =>
    cases h.paired with
    | symbol name => exact agrees_resolve name
    | list quoted opened opened' hitems =>
      cases quoted with
      | false => exact agrees_located opened opened' (hcall _ _ hitems)
      | true => exact agrees_pure h
    | _ => exact agrees_pure h

/-- The induction is on the levels left; each list run uses one. -/
theorem agrees_callAt (depth : Nat) {items items' : List Value}
    (h : List.Forall₂ Similar items items') :
    Eval.Agrees Similar (callAt depth items) (callAt depth items') := by
  induction depth generalizing items items' with
  | zero =>
    cases h with
    | nil => exact agrees_pure rfl
    | cons => exact agrees_fail rfl
  | succ depth ih => exact agrees_run ⟨agrees_exprAt (fun _ _ => ih) depth, ih⟩ h

theorem agrees_ofDepth (depth : Nat) : (ofDepth depth).Agrees :=
  ⟨agrees_exprAt (fun _ _ => agrees_callAt depth) depth, agrees_callAt depth⟩

end Level

open Eval

/-- A new interpreter with the square root of the shell: its one operation does not see positions. -/
theorem blind_new_register_sqrt (config : ReaderConfig) (rolls : Nat → UInt64) :
    ∀ op ∈ ((Machine.new config rolls).register Shell.sqrtFunction).hostOperations, Blind op := by
  intro op hop
  change op ∈ #[Shell.sqrtFunction.run] at hop
  obtain rfl : op = Shell.sqrtFunction.run := by simpa using hop
  exact blind_adapt_of_plain (by simp [Demand.Plain]) _

/-- Positions are for diagnostics only. On machines and for expressions that are the same without
positions, evaluation gives values that are, or errors of one kind with one message; it prints and draws
the same, and leaves machines that are the same without positions. -/
theorem evaluation_ignores_positions {m m' : Machine} (hm : m.bare = m'.bare)
    (hblind : ∀ op ∈ m.hostOperations, Blind op) {e e' : Value} (he : e.bare = e'.bare) (depth : Nat) :
    let r := exec ((Level.ofDepth depth).expr e) m
    let r' := exec ((Level.ofDepth depth).expr e') m'
    ((∃ v v', r.1 = .ok v ∧ r'.1 = .ok v' ∧ v.bare = v'.bare) ∨
      ∃ err err', r.1 = .error err ∧ r'.1 = .error err' ∧
        err.kind? = err'.kind? ∧ err.message = err'.message) ∧
    r.2.world = r'.2.world ∧ r.2.bare = r'.2.bare := by
  intro r r'
  obtain ⟨hout, htwins⟩ := (Level.agrees_ofDepth depth).expr he m m' ⟨hm, hblind⟩
  exact ⟨hout.value_or_error, htwins.world, htwins.bare⟩

/-- A list bound to `data` and called as a function, read from two places: the errors differ in their
places only. -/
theorem evaluation_ignores_positions_moved :
    let m (p : Position) := ((Machine.new {} fun _ => 0).register Shell.sqrtFunction).define "data"
      (.list [.symbol "a"] true (some p))
    let e (p : Position) := Value.list [.symbol "data", .nil] false (some p)
    let r (p : Position) := exec ((Level.ofDepth 3).expr (e p)) (m p)
    (m ⟨1, 1⟩).bare = (m ⟨2, 5⟩).bare ∧ (∀ op ∈ (m ⟨1, 1⟩).hostOperations, Blind op) ∧
      (e ⟨1, 1⟩).bare = (e ⟨2, 5⟩).bare ∧
      ∃ err err', (r ⟨1, 1⟩).1 = .error err ∧ (r ⟨2, 5⟩).1 = .error err' ∧ err ≠ err' ∧
        err.kind? = err'.kind? ∧ err.message = err'.message := by
  intro m e r
  have hm : (m ⟨1, 1⟩).bare = (m ⟨2, 5⟩).bare := by
    rw [Machine.bare_define, Machine.bare_define]
    rfl
  have hblind : ∀ op ∈ (m ⟨1, 1⟩).hostOperations, Blind op := blind_new_register_sqrt _ _
  have he : (e ⟨1, 1⟩).bare = (e ⟨2, 5⟩).bare := rfl
  have herror (p : Position) : (r p).1 =
      .error (.running ⟨.notCallable (.list [.symbol "a"] true (some p)), some p⟩) := rfl
  refine ⟨hm, hblind, he, ?_⟩
  obtain ⟨v, v', hv, -⟩ | ⟨err, err', herr, herr', hsaid⟩ :=
    (evaluation_ignores_positions hm hblind he 3).1
  · cases (herror ⟨1, 1⟩).symm.trans hv
  · refine ⟨err, err', herr, herr', ?_, hsaid⟩
    obtain rfl := Except.error.inj ((herror ⟨1, 1⟩).symm.trans herr)
    obtain rfl := Except.error.inj ((herror ⟨2, 5⟩).symm.trans herr')
    simp

end MiniLisp
