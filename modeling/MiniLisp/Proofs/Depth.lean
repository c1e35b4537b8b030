import MiniLisp.Proofs.Balance

/-! The depth limit is transparent. An evaluation that is not stopped by the limit ends the same way,
on the same machine, when it has more levels left. `Outlasts` says this of two evaluations; every way
of building evaluations keeps it, so each part of the evaluator keeps it, and an induction on the
levels left gives it for the whole. A `let` keeps it because no body can lose its way back and turn the
limit into another error on leaving. -/

namespace MiniLisp

/-- The error of the depth limit, wherever it arose. -/
def Error.isDepthExceeded : Error → Bool
  | running ⟨.depthExceeded, _⟩ => true
  | _ => false

/-- The outcome is that the depth limit was met. -/
def exceedsDepth {α : Type} : Except Error α → Bool
  | .ok _ => false
  | .error err => err.isDepthExceeded

theorem Error.isDepthExceeded_orAt (p : Option Position) (err : Error) :
    (err.orAt p).isDepthExceeded = err.isDepthExceeded := by
  cases err with
  | running e => cases e with | mk cause position => cases cause <;> rfl
  | _ => rfl

theorem exceedsDepth_mapError_orAt {α : Type} (p : Option Position) (r : Except Error α) :
    exceedsDepth (r.mapError (Error.orAt p)) = exceedsDepth r := by
  cases r with
  | ok a => rfl
  | error err => exact Error.isDepthExceeded_orAt p err

/-- The body of a function called at this depth, and what is nested in it, are at depths that a machine
word holds. -/
def NoOverflow (depth : UInt64) : Prop := depth.toNat + 2 < UInt64.size

instance (depth : UInt64) : Decidable (NoOverflow depth) := inferInstanceAs (Decidable (_ < _))

namespace Eval

variable {α β : Type}

/-- On every machine where the depth limit does not stop `e`, `e'` does the same. -/
def Outlasts (e' e : Eval α) : Prop :=
  ∀ m, exceedsDepth (exec e m).1 = false → exec e' m = exec e m

theorem outlasts_refl (e : Eval α) : Outlasts e e := fun _ _ => rfl

theorem outlasts_exceeded (e' : Eval α) : Outlasts e' (fail .depthExceeded) := by
  intro m h
  simp [exceedsDepth, Error.ofCause, Error.isDepthExceeded] at h

theorem outlasts_bind {e e' : Eval α} {f f' : α → Eval β} (he : Outlasts e' e)
    (hf : ∀ a, Outlasts (f' a) (f a)) : Outlasts (e' >>= f') (e >>= f) := by
  intro m h
  rw [exec_bind] at h
  have hfirst : exec e' m = exec e m := by
    apply he
    generalize exec e m = r at h
    obtain ⟨r, m'⟩ := r
    cases r with
    | ok a => rfl
    | error err => exact h
  rw [exec_bind, exec_bind, hfirst]
  generalize exec e m = r at h
  obtain ⟨r, m'⟩ := r
  cases r with
  | ok a => exact hf a m' h
  | error err => rfl

theorem outlasts_located (p : Option Position) {e e' : Eval α} (he : Outlasts e' e) :
    Outlasts (located p e') (located p e) := by
  intro m h
  rw [exec_located, exceedsDepth_mapError_orAt] at h
  rw [exec_located, exec_located, he m h]

/-- That `e` is balanced is needed: leaving the scope could otherwise fail, and hide how `e` ended. -/
theorem outlasts_within (bindings : Bindings Value) {e e' : Eval α} (hb : Balanced e)
    (he : Outlasts e' e) : Outlasts (within bindings e') (within bindings e) := by
  intro m h
  rw [exec_within_of_balanced bindings hb] at h
  rw [exec_within, exec_within, he _ h]

theorem outlasts_calling (scope : ScopeId) (bindings : Bindings Value) {e e' : Eval α}
    (he : Outlasts e' e) : Outlasts (calling scope bindings e') (calling scope bindings e) := by
  intro m h
  rw [exec_calling] at h
  rw [exec_calling, exec_calling, he _ h]

end Eval

namespace Level

open Eval

structure Outlasts (k' k : Level) : Prop where
  expr : ∀ e, Eval.Outlasts (k'.expr e) (k.expr e)
  call : ∀ items, Eval.Outlasts (k'.call items) (k.call items)

section

variable {k k' : Level} (h : k'.Outlasts k)
include h

theorem outlasts_body (v : Value) : Eval.Outlasts (k'.body v) (k.body v) := by
  unfold body
  split
  · exact outlasts_located _ (h.call _)
  · exact h.expr _

theorem outlasts_exprs (es : List Value) : Eval.Outlasts (k'.exprs es) (k.exprs es) := by
  induction es with
  | nil => exact outlasts_refl _
  | cons e es ih =>
    exact outlasts_bind (h.expr e) fun v => outlasts_bind ih fun vs => outlasts_refl _

theorem outlasts_apply (f : Value) (args : List Value) :
    Eval.Outlasts (k'.apply f args) (k.apply f args) := by
  unfold apply
  split
  · exact outlasts_refl _
  · refine outlasts_bind (outlasts_refl _) fun bindings => outlasts_bind (outlasts_refl _) fun m => ?_
    exact outlasts_calling _ _ (outlasts_body h _)
  · exact outlasts_refl _

theorem outlasts_sequence (last : Value) (es : List Value) :
    Eval.Outlasts (k'.sequence last es) (k.sequence last es) := by
  induction es generalizing last with
  | nil => exact outlasts_refl _
  | cons e es ih => exact outlasts_bind (h.expr e) fun v => ih v

theorem outlasts_conditional (operands : List Value) :
    Eval.Outlasts (k'.conditional operands) (k.conditional operands) := by
  unfold conditional
  split
  · refine outlasts_bind (h.expr _) fun v => outlasts_bind (outlasts_refl _) fun b => ?_
    cases b
    · exact outlasts_refl _
    · exact h.expr _
  · refine outlasts_bind (h.expr _) fun v => outlasts_bind (outlasts_refl _) fun b => ?_
    cases b
    · exact h.expr _
    · exact h.expr _
  · exact outlasts_refl _

theorem outlasts_choice (fallback : Option Value) (bs : List Value) :
    Eval.Outlasts (k'.choice fallback bs) (k.choice fallback bs) := by
  induction bs generalizing fallback with
  | nil =>
    cases fallback with
    | none => exact outlasts_refl _
    | some result => exact h.expr result
  | cons b bs ih =>
    unfold choice
    split
    · exact outlasts_refl _
    · refine outlasts_bind (h.expr _) ?_
      intro v
      split
      · exact ih _
      · refine outlasts_bind (outlasts_refl _) ?_
        intro holds
        cases holds
        · exact ih _
        · exact h.expr _

theorem outlasts_evaluation (operands : List Value) :
    Eval.Outlasts (k'.evaluation operands) (k.evaluation operands) := by
  unfold evaluation
  split
  · refine outlasts_bind (h.expr _) ?_
    intro v
    split
    · exact outlasts_located _ (h.call _)
    · exact outlasts_refl _
  · exact outlasts_refl _

theorem outlasts_binding (hk : k.Balanced) (operands : List Value) :
    Eval.Outlasts (k'.binding operands) (k.binding operands) := by
  unfold binding
  split
  · refine outlasts_bind (h.expr _) ?_
    intro v
    exact outlasts_within _ (balanced_body hk _) (outlasts_body h _)
  all_goals exact outlasts_refl _

theorem outlasts_definition (operands : List Value) :
    Eval.Outlasts (k'.definition operands) (k.definition operands) := by
  unfold definition
  split
  · exact outlasts_bind (h.expr _) fun v => outlasts_refl _
  all_goals exact outlasts_refl _

theorem outlasts_special (hk : k.Balanced) (form : SpecialForm) (operands : List Value) :
    Eval.Outlasts (k'.special form operands) (k.special form operands) := by
  cases form with
  | sequence => exact outlasts_sequence h _ operands
  | conditional => exact outlasts_conditional h operands
  | choice => exact outlasts_choice h none operands
  | evaluation => exact outlasts_evaluation h operands
  | binding => exact outlasts_binding h hk operands
  | definition => exact outlasts_definition h operands
  | functionDefinition => exact outlasts_refl _

theorem outlasts_run (hk : k.Balanced) (items : List Value) :
    Eval.Outlasts (k'.run items) (k.run items) := by
  cases items with
  | nil => exact outlasts_refl _
  | cons head operands =>
    refine outlasts_bind (h.expr head) ?_
    intro v
    split
    · exact outlasts_special h hk _ operands
    · exact outlasts_bind (outlasts_exprs h operands) fun args => outlasts_apply h _ args
    · exact outlasts_bind (outlasts_exprs h operands) fun args => outlasts_apply h _ args
    · exact outlasts_refl _

end

theorem outlasts_exprAt {call call' : List Value → Eval Value}
    (h : ∀ items, Eval.Outlasts (call' items) (call items)) {depth depth' : Nat}
    (hle : depth ≤ depth') (e : Value) :
    Eval.Outlasts (exprAt call' depth' e) (exprAt call depth e) := by
  cases depth with
  | zero => exact outlasts_exceeded _
  | succ depth =>
    cases depth' with
    | zero => omega
    | succ depth' =>
      unfold exprAt
      split
      · contradiction
      · exact outlasts_refl _
      · exact outlasts_located _ (h _)
      · exact outlasts_refl _

/-- The induction is on the levels that the shorter evaluation has left; each list run uses one. -/
theorem outlasts_callAt {depth depth' : Nat} (hle : depth ≤ depth') (items : List Value) :
    Eval.Outlasts (callAt depth' items) (callAt depth items) := by
  induction depth generalizing depth' items with
  | zero =>
    cases items with
    | nil => cases depth' <;> exact outlasts_refl _
    | cons => exact outlasts_exceeded _
  | succ depth ih =>
    cases depth' with
    | zero => omega
    | succ depth' =>
      have hle' : depth ≤ depth' := Nat.le_of_succ_le_succ hle
      exact outlasts_run ⟨outlasts_exprAt (ih hle') hle', ih hle'⟩ (balanced_ofDepth depth) items

theorem outlasts_ofDepth {depth depth' : Nat} (hle : depth ≤ depth') :
    (ofDepth depth').Outlasts (ofDepth depth) :=
  ⟨outlasts_exprAt (outlasts_callAt hle) hle, outlasts_callAt hle⟩

theorem atDepth_succ {depth : UInt64} (h : NoOverflow depth) :
    atDepth (depth + 1) = ofDepth (maxDepth - (depth.toNat + 1)) := by
  have hsum : (depth + 1).toNat = depth.toNat + 1 := by
    rw [UInt64.toNat_add, UInt64.toNat_one]
    exact Nat.mod_eq_of_lt (Nat.lt_of_succ_lt h)
  rw [atDepth_of_lt (by rw [hsum]; exact h), hsum]

end Level

open Eval

/-- The depth limit is transparent. If it does not stop an expression evaluated, or a function called, at
some depth, then the same from the same machine at a smaller depth, or with more levels left, ends with
the same value or error and leaves the same machine. A call may be at any depth from which counting on
does not wrap. -/
theorem depth_limit_transparent (m : Machine) :
    (∀ depth depth' : UInt64, depth' ≤ depth →
      (∀ e, exceedsDepth (exec ((Level.atDepth depth).expr e) m).1 = false →
        exec ((Level.atDepth depth').expr e) m = exec ((Level.atDepth depth).expr e) m) ∧
      (NoOverflow depth → ∀ f args, exceedsDepth (exec (Eval.call f args depth) m).1 = false →
        exec (Eval.call f args depth') m = exec (Eval.call f args depth) m)) ∧
    ∀ levels levels' : Nat, levels ≤ levels' →
      (∀ e, exceedsDepth (exec ((Level.ofDepth levels).expr e) m).1 = false →
        exec ((Level.ofDepth levels').expr e) m = exec ((Level.ofDepth levels).expr e) m) ∧
      ∀ f args, exceedsDepth (exec ((Level.ofDepth levels).apply f args) m).1 = false →
        exec ((Level.ofDepth levels').apply f args) m = exec ((Level.ofDepth levels).apply f args) m := by
  constructor
  · intro depth depth' hle
    have hle : depth'.toNat ≤ depth.toNat := UInt64.le_iff_toNat_le.1 hle
    constructor
    · intro e
      exact (Level.outlasts_ofDepth (Nat.sub_le_sub_left hle maxDepth)).expr e m
    · intro hword f args
      have hword' : NoOverflow depth' := Nat.lt_of_le_of_lt (Nat.add_le_add_right hle 2) hword
      have hbody : maxDepth - (depth.toNat + 1) ≤ maxDepth - (depth'.toNat + 1) := by omega
      unfold Eval.call
      rw [Level.atDepth_succ hword, Level.atDepth_succ hword']
      exact Level.outlasts_apply (Level.outlasts_ofDepth hbody) f args m
  · intro levels levels' hle
    have houtlasts := Level.outlasts_ofDepth hle
    exact ⟨fun e => houtlasts.expr e m, fun f args => Level.outlasts_apply houtlasts f args m⟩

/-- A list in a list needs three levels: at the last depth but one the limit stops it, and one depth
before it does not. The body of a function called there is one deeper. -/
theorem depth_limit_transparent_nested :
    let m := Machine.new {} fun _ => 0
    let e := Value.list [.symbol "do", .list [.symbol "do", .keyword "ok"] false none] false none
    let f := Value.lambda ⟨0, "f", "", [], .any⟩ e none
    exceedsDepth (exec ((Level.atDepth 9998).expr e) m).1 = true ∧
      exceedsDepth (exec ((Level.atDepth 9997).expr e) m).1 = false ∧
      exec (Eval.expression e) m = exec ((Level.atDepth 9997).expr e) m ∧
      NoOverflow 9996 ∧ exceedsDepth (exec (Eval.call f [] 9996) m).1 = false ∧
      exec (Eval.call f [] 0) m = exec (Eval.call f [] 9996) m := by
  intro m e f
  have hends : exceedsDepth (exec ((Level.atDepth 9997).expr e) m).1 = false := by decide +kernel
  have hcalled : exceedsDepth (exec (Eval.call f [] 9996) m).1 = false := by decide +kernel
  have hword : NoOverflow 9996 := by decide
  refine ⟨by decide +kernel, hends, ?_, hword, hcalled, ?_⟩
  · exact ((depth_limit_transparent m).1 9997 0 (by decide)).1 e hends
  · exact ((depth_limit_transparent m).1 9996 0 (by decide)).2 hword f [] hcalled

end MiniLisp
