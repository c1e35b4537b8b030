import MiniLisp.Proofs.Growth

/-! Scope balance. A `let` goes back to the parent of whatever scope is current when its body ends, and
a call puts back the scope it has saved, so each relies on everything nested in it. `Balanced` is what
they rely on: on every machine and however it ends, an evaluation ends in the scope where it started.
One lemma for each part of the evaluator, and an induction on the levels left, give it for all of them;
in a session, only entering and leaving move the current scope. -/

namespace MiniLisp

theorem Error.orAt_eq_leftRoot (p : Option Position) (err : Error) :
    err.orAt p = .leftRoot ↔ err = .leftRoot := by
  cases err <;> simp [Error.orAt]

/-- How an evaluation started on `m` ends: in the scope that was current, and not because the outermost
scope was to be left. -/
structure Restores {α : Type} (m : Machine) (r : Except Error α × Machine) : Prop where
  current : r.2.current = m.current
  evolves : Evolves m r.2
  inside : r.1 ≠ .error .leftRoot

namespace Eval

variable {α β : Type}

def Balanced (e : Eval α) : Prop := ∀ m, Restores m (exec e m)

theorem balanced_pure (a : α) : Balanced (pure a : Eval α) := fun _ =>
  ⟨rfl, .refl, by simp⟩

theorem balanced_get : Balanced (get : Eval Machine) := fun _ => ⟨rfl, .refl, by simp⟩

theorem balanced_fail (c : Cause) : Balanced (fail c : Eval α) := fun _ =>
  ⟨rfl, .refl, by simp [Error.ofCause]⟩

theorem balanced_ofExcept (r : Except Cause α) : Balanced (ofExcept r) := by
  cases r with
  | ok a => exact balanced_pure a
  | error c => exact balanced_fail c

theorem balanced_resolve (name : String) : Balanced (resolve name) := fun m =>
  balanced_ofExcept (m.resolve name) m

theorem balanced_bind {e : Eval α} {f : α → Eval β} (he : Balanced e) (hf : ∀ a, Balanced (f a)) :
    Balanced (e >>= f) := by
  intro m
  have h := he m
  rw [exec_bind]
  generalize exec e m = r at h ⊢
  obtain ⟨r, m'⟩ := r
  cases r with
  | ok a =>
    have h' := hf a m'
    exact ⟨h'.current.trans h.current, h.evolves.trans h'.evolves, h'.inside⟩
  | error err => exact ⟨h.current, h.evolves, fun heq => h.inside (by simpa using heq)⟩

theorem balanced_located (p : Option Position) {e : Eval α} (he : Balanced e) :
    Balanced (located p e) := by
  intro m
  have h := he m
  rw [exec_located]
  generalize exec e m = r at h ⊢
  obtain ⟨r, m'⟩ := r
  refine ⟨h.current, h.evolves, ?_⟩
  intro heq
  cases r with
  | ok a => cases heq
  | error err =>
    have herr : err = .leftRoot := (Error.orAt_eq_leftRoot p err).1 (Except.error.inj heq)
    exact h.inside (by rw [herr])

theorem balanced_perform (op : Op α) : Balanced (perform op) := by
  intro m
  rw [exec_perform]
  refine ⟨rfl, .single (.perform m _), ?_⟩
  intro heq
  generalize (op m.world).1 = r at heq
  cases r <;> cases heq

theorem balanced_define (name : String) (v : Value) :
    Balanced (modify (·.define name v) : Eval Unit) := fun m =>
  ⟨rfl, .single (.define m name v), by simp⟩

theorem balanced_defineFunction (name : String) (params : List String) (body : Value) :
    Balanced (modifyGet (·.defineFunction name params body) : Eval Value) := fun m =>
  ⟨rfl, .single (.defineFunction m name params body), by simp⟩

/-- Nothing that grows out of a scope just entered can lose the way back. -/
theorem leave?_of_grows {m m' : Machine} {bindings : Bindings Value}
    (hg : Grows (m.enter bindings) m') (hc : m'.current = m.store.fresh) :
    m'.leave? = some { m' with current := m.current } := by
  have hhas : (m.enter bindings).store.Has m.store.fresh := (m.store.has_add _ _).2 (Or.inl rfl)
  have houter : (m'.store.get m.store.fresh).outer = m.store.chain m.current := by
    rw [hg.outer _ hhas]
    change ((m.store.add ⟨bindings, m.store.chain m.current⟩).get m.store.fresh).outer = _
    rw [Store.get_add, if_pos rfl]
  unfold Machine.leave? Store.parent?
  rw [hc, houter]
  rfl

theorem exec_within_of_balanced (bindings : Bindings Value) {e : Eval α} (he : Balanced e)
    (m : Machine) :
    exec (within bindings e) m =
      let r := exec e (m.enter bindings)
      (r.1, { r.2 with current := m.current }) := by
  have h := he (m.enter bindings)
  have hleave := leave?_of_grows (grows_evolves h.evolves) h.current
  rw [exec_within, exec_leave_some hleave, continueWith_ok, exec_ofOutcome]

theorem balanced_within (bindings : Bindings Value) {e : Eval α} (he : Balanced e) :
    Balanced (within bindings e) := by
  intro m
  have h := he (m.enter bindings)
  have hin : Evolves m (m.enter bindings) := .single (.enter m bindings)
  rw [exec_within_of_balanced bindings he]
  exact ⟨rfl, (hin.trans h.evolves).tail (.move _ _), h.inside⟩

theorem balanced_calling (scope : ScopeId) (bindings : Bindings Value) {e : Eval α}
    (he : Balanced e) : Balanced (calling scope bindings e) := by
  intro m
  have h := he ({ m with current := scope }.enter bindings)
  have hin : Evolves m ({ m with current := scope }.enter bindings) :=
    (Relation.ReflTransGen.single (.move m scope)).tail (.enter _ bindings)
  rw [exec_calling]
  exact ⟨rfl, (hin.trans h.evolves).tail (.move _ _), h.inside⟩

end Eval

namespace Level

open Eval

structure Balanced (k : Level) : Prop where
  expr : ∀ e, Eval.Balanced (k.expr e)
  call : ∀ items, Eval.Balanced (k.call items)

variable {k : Level} (hk : k.Balanced)
include hk

theorem balanced_body (v : Value) : Eval.Balanced (k.body v) := by
  unfold body
  split
  · exact balanced_located _ (hk.call _)
  · exact hk.expr _

theorem balanced_exprs (es : List Value) : Eval.Balanced (k.exprs es) := by
  induction es with
  | nil => exact balanced_pure []
  | cons e es ih =>
    exact balanced_bind (hk.expr e) fun v => balanced_bind ih fun vs => balanced_pure (v :: vs)

theorem balanced_apply (f : Value) (args : List Value) : Eval.Balanced (k.apply f args) := by
  unfold apply
  split
  · refine balanced_bind (balanced_ofExcept _) ?_
    intro args
    exact balanced_bind balanced_get fun m => balanced_perform _
  · refine balanced_bind (balanced_ofExcept _) ?_
    intro bindings
    exact balanced_bind balanced_get fun m => balanced_calling _ _ (balanced_body hk _)
  · exact balanced_fail _

theorem balanced_sequence (last : Value) (es : List Value) :
    Eval.Balanced (k.sequence last es) := by
  induction es generalizing last with
  | nil => exact balanced_pure last
  | cons e es ih => exact balanced_bind (hk.expr e) fun v => ih v

omit hk in
theorem balanced_condition (form : SpecialForm) (v : Value) :
    Eval.Balanced (condition form v) := by
  unfold condition
  split
  · exact balanced_pure _
  · exact balanced_fail _

theorem balanced_conditional (operands : List Value) : Eval.Balanced (k.conditional operands) := by
  unfold conditional
  split
  · refine balanced_bind (hk.expr _) fun v => balanced_bind (balanced_condition _ v) fun b => ?_
    cases b
    · exact balanced_pure _
    · exact hk.expr _
  · refine balanced_bind (hk.expr _) fun v => balanced_bind (balanced_condition _ v) fun b => ?_
    cases b
    · exact hk.expr _
    · exact hk.expr _
  · exact balanced_fail _

theorem balanced_choice (fallback : Option Value) (bs : List Value) :
    Eval.Balanced (k.choice fallback bs) := by
  induction bs generalizing fallback with
  | nil =>
    cases fallback with
    | none => exact balanced_pure _
    | some result => exact hk.expr result
  | cons b bs ih =>
    unfold choice
    split
    · exact balanced_fail _
    · refine balanced_bind (hk.expr _) ?_
      intro v
      split
      · exact ih _
      · refine balanced_bind (balanced_condition _ v) ?_
        intro holds
        cases holds
        · exact ih _
        · exact hk.expr _

theorem balanced_evaluation (operands : List Value) : Eval.Balanced (k.evaluation operands) := by
  unfold evaluation
  split
  · refine balanced_bind (hk.expr _) ?_
    intro v
    split
    · exact balanced_located _ (hk.call _)
    · exact balanced_pure _
  · exact balanced_fail _

theorem balanced_binding (operands : List Value) : Eval.Balanced (k.binding operands) := by
  unfold binding
  split
  · exact balanced_bind (hk.expr _) fun v => balanced_within _ (balanced_body hk _)
  all_goals exact balanced_fail _

theorem balanced_definition (operands : List Value) : Eval.Balanced (k.definition operands) := by
  unfold definition
  split
  · refine balanced_bind (hk.expr _) ?_
    intro v
    exact balanced_bind (balanced_define _ v) fun _ => balanced_pure v
  all_goals exact balanced_fail _

omit hk in
theorem balanced_functionDefinition (operands : List Value) :
    Eval.Balanced (functionDefinition operands) := by
  unfold functionDefinition
  split
  · exact balanced_bind (balanced_ofExcept _) fun names => balanced_defineFunction _ names _
  all_goals exact balanced_fail _

theorem balanced_special (form : SpecialForm) (operands : List Value) :
    Eval.Balanced (k.special form operands) := by
  cases form with
  | sequence => exact balanced_sequence hk _ operands
  | conditional => exact balanced_conditional hk operands
  | choice => exact balanced_choice hk none operands
  | evaluation => exact balanced_evaluation hk operands
  | binding => exact balanced_binding hk operands
  | definition => exact balanced_definition hk operands
  | functionDefinition => exact balanced_functionDefinition operands

theorem balanced_run (items : List Value) : Eval.Balanced (k.run items) := by
  cases items with
  | nil => exact balanced_pure _
  | cons head operands =>
    refine balanced_bind (hk.expr head) ?_
    intro v
    split
    · exact balanced_special hk _ operands
    · exact balanced_bind (balanced_exprs hk operands) fun args => balanced_apply hk _ args
    · exact balanced_bind (balanced_exprs hk operands) fun args => balanced_apply hk _ args
    · split
      · exact balanced_pure _
      · exact balanced_fail _

omit hk

theorem balanced_exprAt {call : List Value → Eval Value} (hcall : ∀ items, Eval.Balanced (call items))
    (depth : Nat) (e : Value) : Eval.Balanced (exprAt call depth e) := by
  unfold exprAt
  split
  · exact balanced_fail _
  · exact balanced_resolve _
  · exact balanced_located _ (hcall _)
  · exact balanced_pure _

theorem balanced_callAt (depth : Nat) (items : List Value) : Eval.Balanced (callAt depth items) := by
  induction depth generalizing items with
  | zero =>
    cases items with
    | nil => exact balanced_pure _
    | cons => exact balanced_fail _
  | succ depth ih => exact balanced_run ⟨balanced_exprAt ih depth, ih⟩ items

theorem balanced_ofDepth (depth : Nat) : (ofDepth depth).Balanced :=
  ⟨balanced_exprAt (balanced_callAt depth) depth, balanced_callAt depth⟩

theorem balanced_atDepth (depth : UInt64) : (atDepth depth).Balanced := by
  obtain ⟨n, n', h⟩ := atDepth_eq depth
  rw [h]
  exact ⟨(balanced_ofDepth n).expr, (balanced_ofDepth n').call⟩

end Level

end MiniLisp
