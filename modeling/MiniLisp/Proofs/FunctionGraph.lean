import MiniLisp.Proofs.Provenance

/-! The graph of functions has no cycle. An evaluation that is given known values goes from moment to
moment and ends with a known value (`Level.traced_ofDepth`), and so does every step of a session whose
host passes on what it was given (`moment_of_session`). At every moment a function refers only to
functions made before it, so that no row of references comes back. -/

namespace MiniLisp

open Value

variable {config : ReaderConfig} {rolls : Nat → UInt64}

theorem Orderly.resolve {m : Machine} {made : List Value} (ho : Orderly m made) {name : String}
    {v : Value} (h : m.resolve name = .ok v) : v.Known made := by
  rw [Machine.resolve_eq, Machine.resolveGlobal] at h
  split at h
  · cases h
    exact ho.lookup ‹_›
  · split at h
    · cases h
      exact ho.lookup ‹_›
    · split at h
      · cases h
        exact known_special made _
      · split at h
        · cases h
          exact ho.builtins name v ‹_›
        · cases h

namespace Eval

variable {α β : Type}

/-- How an evaluation started after `made` ends: at a later moment, with a value as `Q` says. -/
def Arrives (config : ReaderConfig) (rolls : Nat → UInt64) (made : List Value)
    (Q : List Value → α → Prop) (r : Except Error α × Machine) : Prop :=
  ∃ made', made <:+ made' ∧ Moment config rolls r.2 made' ∧ ∀ a, r.1 = .ok a → Q made' a

/-- Once the functions in `made` are there, the evaluation goes from moment to moment. -/
def Traced (config : ReaderConfig) (rolls : Nat → UInt64) (made : List Value)
    (Q : List Value → α → Prop) (e : Eval α) : Prop :=
  ∀ m made', made <:+ made' → Moment config rolls m made' → Arrives config rolls made' Q (exec e m)

variable {made : List Value} {Q : List Value → α → Prop} {R : List Value → β → Prop}

theorem Traced.arrives {e : Eval α} (he : Traced config rolls made Q e) {m : Machine}
    (hm : Moment config rolls m made) : Arrives config rolls made Q (exec e m) :=
  he m made (List.suffix_refl made) hm

theorem traced_pure {a : α} (h : ∀ made', made <:+ made' → Q made' a) :
    Traced config rolls made Q (pure a) := by
  intro m made' hmade hm
  refine ⟨made', List.suffix_refl made', hm, ?_⟩
  rintro _ ⟨⟩
  exact h made' hmade

theorem traced_value {v : Value} (hv : v.Known made) : Traced config rolls made Known (pure v) :=
  traced_pure fun _ hmade => hv.mono hmade

theorem traced_fail (c : Cause) : Traced config rolls made Q (fail c) :=
  fun _ made' _ hm => ⟨made', List.suffix_refl made', hm, nofun⟩

theorem traced_ofExcept {r : Except Cause α} (h : ∀ a, r = .ok a → ∀ made', made <:+ made' → Q made' a) :
    Traced config rolls made Q (ofExcept r) := by
  cases r with
  | ok a => exact traced_pure (h a rfl)
  | error c => exact traced_fail c

theorem traced_bind {e : Eval α} {f : α → Eval β} (he : Traced config rolls made Q e)
    (hf : ∀ made' a, made <:+ made' → Q made' a → Traced config rolls made' R (f a)) :
    Traced config rolls made R (e >>= f) := by
  intro m made₀ hmade hm
  obtain ⟨made₁, hmade₁, hm₁, ha⟩ := he m made₀ hmade hm
  rw [exec_bind]
  generalize exec e m = r at hm₁ ha ⊢
  obtain ⟨r, m₁⟩ := r
  cases r with
  | error err => exact ⟨made₁, hmade₁, hm₁, nofun⟩
  | ok a =>
    obtain ⟨made₂, hmade₂, h⟩ := (hf made₁ a (hmade.trans hmade₁) (ha a rfl)).arrives hm₁
    exact ⟨made₂, hmade₁.trans hmade₂, h⟩

theorem traced_located (p : Option Position) {e : Eval α} (he : Traced config rolls made Q e) :
    Traced config rolls made Q (located p e) := by
  intro m made' hmade hm
  obtain ⟨made₁, hmade₁, hm₁, ha⟩ := he m made' hmade hm
  refine ⟨made₁, hmade₁, hm₁, ?_⟩
  rw [exec_located]
  intro a h
  generalize (exec e m).1 = r at ha h
  cases r with
  | ok b => exact ha a h
  | error err => cases h

theorem traced_resolve (name : String) : Traced config rolls made Known (resolve name) := by
  intro m made' _ hm
  have hknown : ∀ v, m.resolve name = .ok v → v.Known made' :=
    fun v hv => (orderly_of_moment hm).resolve hv
  exact (traced_ofExcept fun v hv made'' hmade => (hknown v hv).mono hmade).arrives hm

theorem traced_operation (n : Native) {args : List Value} (hargs : ∀ a ∈ args, a.Known made) :
    Traced config rolls made Known (get >>= fun m => perform (m.operation n args)) := by
  intro m made' hmade hm
  have hyields := (orderly_of_moment hm).yields_operation n
    fun a ha => (hargs a ha).mono hmade
  refine ⟨made', List.suffix_refl made', ?_⟩
  rw [exec_bind, exec_get, continueWith_ok, exec_perform]
  refine ⟨hm.perform _, ?_⟩
  intro v hv
  generalize hr : (m.operation n args m.world).1 = r at hv
  cases r with
  | ok w =>
    cases hv
    exact hyields m.world v hr
  | error c => cases hv

theorem traced_define (name : String) {v : Value} (hv : v.Known made) :
    Traced config rolls made (fun _ _ => True) (modify (·.define name v) : Eval Unit) := by
  intro m made' hmade hm
  exact ⟨made', List.suffix_refl made', hm.define name (hv.mono hmade), fun _ _ => trivial⟩

theorem traced_defineFunction (name : String) {names : List String} (hnames : names.Nodup)
    {body : Value} (hbody : body.Known made) :
    Traced config rolls made Known (modifyGet (·.defineFunction name names body)) := by
  intro m made' hmade hm
  refine ⟨_, List.suffix_cons _ made', hm.defineFunction name hnames (hbody.mono hmade), ?_⟩
  rintro _ ⟨⟩
  exact known_lambda.2 List.mem_cons_self

theorem traced_within {bindings : Bindings Value} (hb : ∀ x v, bindings.get? x = some v → v.Known made)
    {e : Eval α} (he : Traced config rolls made Q e) :
    Traced config rolls made Q (within bindings e) := by
  intro m made' hmade hm
  have hin := hm.enter fun x v hx => (hb x v hx).mono hmade
  obtain ⟨made₁, hmade₁, hm₁, ha⟩ := he _ made' hmade hin
  refine ⟨made₁, hmade₁, ?_⟩
  rw [exec_within]
  cases hleave : (exec e (m.enter bindings)).2.leave? with
  | none =>
    rw [exec_leave_none hleave, continueWith_error]
    exact ⟨hm₁, nofun⟩
  | some m₂ =>
    obtain ⟨p, -, -, rfl⟩ := Machine.leave?_eq_some hleave
    rw [exec_leave_some hleave, continueWith_ok, exec_ofOutcome]
    exact ⟨hm₁.move p, ha⟩

theorem traced_calling (scope : ScopeId) {bindings : Bindings Value}
    (hb : ∀ x v, bindings.get? x = some v → v.Known made) {e : Eval α}
    (he : Traced config rolls made Q e) : Traced config rolls made Q (calling scope bindings e) := by
  intro m made' hmade hm
  have hin := (hm.move scope).enter fun x v hx => (hb x v hx).mono hmade
  obtain ⟨made₁, hmade₁, hm₁, ha⟩ := he _ made' hmade hin
  refine ⟨made₁, hmade₁, ?_⟩
  rw [exec_calling]
  exact ⟨hm₁.move m.current, ha⟩

end Eval

namespace Level

open Eval

structure Traced (config : ReaderConfig) (rolls : Nat → UInt64) (k : Level) : Prop where
  expr : ∀ {made : List Value} {e : Value}, e.Known made → Eval.Traced config rolls made Known (k.expr e)
  call : ∀ {made items : List Value}, (∀ v ∈ items, v.Known made) →
    Eval.Traced config rolls made Known (k.call items)

variable {k : Level} (hk : k.Traced config rolls) {made : List Value}
include hk

theorem traced_body {v : Value} (hv : v.Known made) :
    Eval.Traced config rolls made Known (k.body v) := by
  unfold body
  split
  · exact traced_located _ (hk.call (known_list.1 hv))
  · exact hk.expr hv

theorem traced_exprs {es : List Value} (hes : ∀ e ∈ es, e.Known made) :
    Eval.Traced config rolls made (fun made' vs => ∀ v ∈ vs, v.Known made') (k.exprs es) := by
  induction es generalizing made with
  | nil => exact traced_pure (by simp)
  | cons e es ih =>
    obtain ⟨he, hes⟩ := List.forall_mem_cons.1 hes
    refine traced_bind (hk.expr he) fun made₁ v hmade₁ hv => ?_
    refine traced_bind (ih fun e he => (hes e he).mono hmade₁) fun made₂ vs hmade₂ hvs => ?_
    refine traced_pure fun made₃ hmade₃ => List.forall_mem_cons.2 ⟨?_, ?_⟩
    · exact hv.mono (hmade₂.trans hmade₃)
    · exact fun v hv => (hvs v hv).mono hmade₃

omit hk in
theorem known_ofList {pairs : List (String × Value)} (h : ∀ e ∈ pairs, e.2.Known made) (x : String)
    (v : Value) (hx : (Bindings.ofList pairs).get? x = some v) : v.Known made := by
  rw [Bindings.get?_ofList] at hx
  exact h (x, v) (List.mem_reverse.1 (mem_of_lookup hx))

theorem traced_apply {f : Value} {args : List Value} (hf : f.Known made)
    (hargs : ∀ a ∈ args, a.Known made) : Eval.Traced config rolls made Known (k.apply f args) := by
  unfold apply
  split
  · rename_i h n
    refine traced_bind (traced_ofExcept fun vs hvs made' hmade v hv =>
      (known_of_bindArguments hargs hvs v hv).mono hmade) fun made' vs hmade hvs => ?_
    exact traced_operation n hvs
  · rename_i h body captured
    intro m made' hmade hm
    -- the body was known when the function was made
    obtain ⟨scope, rfl, hsealed⟩ :=
      (orderly_of_moment hm).closed h body captured (hmade.mem (known_lambda.1 hf))
    have hbody : body.Known made' := fun g hg => (hsealed.earlier g (.body hg)).1
    refine (traced_bind (traced_ofExcept fun bindings hbindings made'' hmade' e he =>
      (known_of_suppliedArguments hargs hbindings e he).mono (hmade.trans hmade'))
      fun made'' bindings hmade' hb => ?_).arrives hm
    intro m' made₃ hmade₃ hm'
    exact traced_calling scope (known_ofList hb) (traced_body hk (hbody.mono hmade')) m' made₃ hmade₃ hm'
  · exact traced_fail _

theorem traced_sequence {last : Value} {es : List Value} (hlast : last.Known made)
    (hes : ∀ e ∈ es, e.Known made) : Eval.Traced config rolls made Known (k.sequence last es) := by
  induction es generalizing last made with
  | nil => exact traced_value hlast
  | cons e es ih =>
    obtain ⟨he, hes⟩ := List.forall_mem_cons.1 hes
    exact traced_bind (hk.expr he) fun made' v hmade hv =>
      ih hv fun e he => (hes e he).mono hmade

omit hk in
theorem traced_condition (form : SpecialForm) (v : Value) :
    Eval.Traced config rolls made (fun _ _ => True) (condition form v) := by
  unfold condition
  split
  · exact traced_pure fun _ _ => trivial
  · exact traced_fail _

theorem traced_conditional {operands : List Value} (hops : ∀ e ∈ operands, e.Known made) :
    Eval.Traced config rolls made Known (k.conditional operands) := by
  have hexpr {made' : List Value} (hmade : made <:+ made') {e : Value} (he : e ∈ operands) :
      Eval.Traced config rolls made' Known (k.expr e) := hk.expr ((hops e he).mono hmade)
  unfold conditional
  split
  · refine traced_bind (hexpr (List.suffix_refl made) (by simp)) fun made₁ v hmade₁ hv => ?_
    refine traced_bind (traced_condition _ v) fun made₂ b hmade₂ _ => ?_
    split
    · exact hexpr (hmade₁.trans hmade₂) (by simp)
    · exact traced_value (known_of_ty nofun nofun)
  · refine traced_bind (hexpr (List.suffix_refl made) (by simp)) fun made₁ v hmade₁ hv => ?_
    refine traced_bind (traced_condition _ v) fun made₂ b hmade₂ _ => ?_
    split
    · exact hexpr (hmade₁.trans hmade₂) (by simp)
    · exact hexpr (hmade₁.trans hmade₂) (by simp)
  · exact traced_fail _

omit hk in
theorem known_of_branch? {b test result : Value} (hb : b.Known made)
    (h : branch? b = some (test, result)) : test.Known made ∧ result.Known made := by
  unfold branch? at h
  split at h
  · cases h
    simpa using known_list.1 hb
  · cases h

theorem traced_choice {fallback : Option Value} {bs : List Value}
    (hfallback : ∀ v ∈ fallback, v.Known made) (hbs : ∀ b ∈ bs, b.Known made) :
    Eval.Traced config rolls made Known (k.choice fallback bs) := by
  induction bs generalizing fallback made with
  | nil =>
    cases fallback with
    | none => exact traced_value (known_of_ty nofun nofun)
    | some result => exact hk.expr (hfallback result rfl)
  | cons b bs ih =>
    obtain ⟨hb, hbs⟩ := List.forall_mem_cons.1 hbs
    unfold choice
    split
    · exact traced_fail _
    · rename_i test result hbranch
      obtain ⟨htest, hresult⟩ := known_of_branch? hb hbranch
      refine traced_bind (hk.expr htest) fun made₁ v hmade₁ hv => ?_
      split
      · refine ih ?_ fun b hb => (hbs b hb).mono hmade₁
        rintro _ ⟨⟩
        exact hresult.mono hmade₁
      · refine traced_bind (traced_condition _ v) fun made₂ holds hmade₂ _ => ?_
        have hmade := hmade₁.trans hmade₂
        split
        · exact hk.expr (hresult.mono hmade)
        · exact ih (fun v hv => (hfallback v hv).mono hmade) fun b hb => (hbs b hb).mono hmade

theorem traced_evaluation {operands : List Value} (hops : ∀ e ∈ operands, e.Known made) :
    Eval.Traced config rolls made Known (k.evaluation operands) := by
  unfold evaluation
  split
  · refine traced_bind (hk.expr (hops _ (by simp))) fun made' v hmade hv => ?_
    split
    · exact traced_located _ (hk.call (known_list.1 hv))
    · exact traced_value hv
  · exact traced_fail _

theorem traced_binding {operands : List Value} (hops : ∀ e ∈ operands, e.Known made) :
    Eval.Traced config rolls made Known (k.binding operands) := by
  unfold binding
  split
  · rename_i name e quoted opened body
    have hpair : (Value.list [.symbol name, e] quoted opened).Known made := hops _ List.mem_cons_self
    have he : e.Known made := known_list.1 hpair e (by simp)
    refine traced_bind (hk.expr he) fun made' v hmade hv => ?_
    refine traced_within (known_ofList (by simpa using hv)) (traced_body hk ?_)
    exact (hops body (by simp)).mono hmade
  all_goals exact traced_fail _

theorem traced_definition {operands : List Value} (hops : ∀ e ∈ operands, e.Known made) :
    Eval.Traced config rolls made Known (k.definition operands) := by
  unfold definition
  split
  · refine traced_bind (hk.expr (hops _ (by simp))) fun made' v hmade hv => ?_
    exact traced_bind (traced_define _ hv) fun _ _ hmade' _ => traced_value (hv.mono hmade')
  all_goals exact traced_fail _

omit hk in
theorem traced_functionDefinition {operands : List Value} (hops : ∀ e ∈ operands, e.Known made) :
    Eval.Traced config rolls made Known (functionDefinition operands) := by
  unfold functionDefinition
  split
  · rename_i name params quoted opened body
    refine traced_bind (traced_ofExcept fun names hnames _ _ => (paramNames_eq_ok hnames).2.1)
      fun made' names hmade hnames => ?_
    exact traced_defineFunction name hnames ((hops body (by simp)).mono hmade)
  all_goals exact traced_fail _

theorem traced_special (form : SpecialForm) {operands : List Value}
    (hops : ∀ e ∈ operands, e.Known made) :
    Eval.Traced config rolls made Known (k.special form operands) := by
  cases form with
  | sequence => exact traced_sequence hk (known_of_ty nofun nofun) hops
  | conditional => exact traced_conditional hk hops
  | choice => exact traced_choice hk (by simp) hops
  | evaluation => exact traced_evaluation hk hops
  | binding => exact traced_binding hk hops
  | definition => exact traced_definition hk hops
  | functionDefinition => exact traced_functionDefinition hops

theorem traced_run {items : List Value} (hitems : ∀ v ∈ items, v.Known made) :
    Eval.Traced config rolls made Known (k.run items) := by
  cases items with
  | nil => exact traced_value (known_of_ty nofun nofun)
  | cons head operands =>
    obtain ⟨hhead, hops⟩ := List.forall_mem_cons.1 hitems
    refine traced_bind (hk.expr hhead) fun made₁ v hmade₁ hv => ?_
    have hops₁ : ∀ e ∈ operands, e.Known made₁ := fun e he => (hops e he).mono hmade₁
    split
    · exact traced_special hk _ hops₁
    · exact traced_bind (traced_exprs hk hops₁) fun made₂ args hmade₂ hargs =>
        traced_apply hk (hv.mono hmade₂) hargs
    · exact traced_bind (traced_exprs hk hops₁) fun made₂ args hmade₂ hargs =>
        traced_apply hk (hv.mono hmade₂) hargs
    · split
      · exact traced_value hv
      · exact traced_fail _

omit hk

theorem traced_exprAt {call : List Value → Eval Value}
    (hcall : ∀ {made items : List Value}, (∀ v ∈ items, v.Known made) →
      Eval.Traced config rolls made Known (call items))
    (depth : Nat) {e : Value} (he : e.Known made) :
    Eval.Traced config rolls made Known (exprAt call depth e) := by
  unfold exprAt
  split
  · exact traced_fail _
  · exact traced_resolve _
  · exact traced_located _ (hcall (known_list.1 he))
  · exact traced_value he

theorem traced_callAt (depth : Nat) {items : List Value} (hitems : ∀ v ∈ items, v.Known made) :
    Eval.Traced config rolls made Known (callAt depth items) := by
  induction depth generalizing items made with
  | zero =>
    cases items with
    | nil => exact traced_value (known_of_ty nofun nofun)
    | cons => exact traced_fail _
  | succ depth ih => exact traced_run ⟨traced_exprAt ih depth, ih⟩ hitems

theorem traced_ofDepth (depth : Nat) : (ofDepth depth).Traced config rolls :=
  ⟨traced_exprAt (traced_callAt depth) depth, traced_callAt depth⟩

theorem traced_atDepth (depth : UInt64) : (atDepth depth).Traced config rolls := by
  obtain ⟨n, n', h⟩ := atDepth_eq depth
  rw [h]
  exact ⟨(traced_ofDepth n).expr, (traced_ofDepth n').call⟩

end Level

/-! Sessions. -/

namespace Step

/-- The host hands the value in. -/
def Gives : Step → Value → Prop
  | run _, _ | leave, _ | register _, _ => False
  | evaluate e, v | define _ e, v => v = e
  | forms es, v | call _ es _, v => v ∈ es
  | enter bindings, v => ∃ x, bindings.get? x = some v

/-- The host hands in no function but such as `known` says, be it through an operation. -/
structure Passes (known : Value → Prop) (s : Step) : Prop where
  gives : ∀ v, s.Gives v → ∀ f, v.Holds f → known f
  register : ∀ d, s = .register d → Honest known d.run

end Step

namespace Machine

/-- What the host has from a step. -/
def answer (m : Machine) (s : Step) : List Value :=
  match (m.step s).1 with
  | .ok (some v) => [v]
  | _ => []

end Machine

/-- The function can be come by: it is held by what some scope binds, by a builtin or by a value that was
handed out, or a function that can be come by refers to it. -/
inductive Reachable (m : Machine) (given : List Value) : Value → Prop
  | bound {id : ScopeId} {x : String} {v f : Value} :
    (m.store.get id).bindings.get? x = some v → v.Holds f → Reachable m given f
  | builtin {x : String} {v f : Value} :
    m.builtins.get? x = some v → v.Holds f → Reachable m given f
  | given {v f : Value} : v ∈ given → v.Holds f → Reachable m given f
  | referred {f g : Value} : Reachable m given f → Refers m.store f g → Reachable m given g

/-- `Session config rolls m given`: a host that makes no functions of its own but those of builtins has
come from a new interpreter to `m`, and has been given these values. -/
inductive Session (config : ReaderConfig) (rolls : Nat → UInt64) : Machine → List Value → Prop
  | new : Session config rolls (.new config rolls) []
  | step {m : Machine} {given : List Value} (s : Step) (hm : Session config rolls m given)
    (hs : s.Passes (Reachable m given)) : Session config rolls (m.step s).2 (m.answer s ++ given)
  | make {m : Machine} {given : List Value} (b : Builtin) (hm : Session config rolls m given) :
    Session config rolls { m with nextSerial := m.nextSerial + 1 } (b.toValue m.nextSerial :: given)

open Eval

theorem traced_forms {made : List Value} {last : Option Value} {es : List Value}
    (hlast : ∀ v ∈ last, v.Known made) (hes : ∀ e ∈ es, e.Known made) :
    Traced config rolls made (fun made' r => ∀ v ∈ r, v.Known made') (forms last es) := by
  induction es generalizing last made with
  | nil => exact traced_pure fun made' hmade v hv => (hlast v hv).mono hmade
  | cons e es ih =>
    obtain ⟨he, hes⟩ := List.forall_mem_cons.1 hes
    refine traced_bind ((Level.traced_ofDepth maxDepth).expr he) fun made' v hmade hv => ?_
    refine ih ?_ fun e he => (hes e he).mono hmade
    rintro _ ⟨⟩
    exact hv

theorem traced_program (made : List Value) (source : String) :
    Traced config rolls made (fun made' r => ∀ v ∈ r, v.Known made') (program source) := by
  intro m made' _ hm
  unfold program
  rw [exec_bind, exec_get, continueWith_ok]
  split
  · rename_i es hes
    have hknown := known_of_readForms hes
    exact (traced_forms (by simp) fun e he => (hknown e he).mono List.nil_suffix).arrives hm
  · exact ⟨made', List.suffix_refl made', hm, nofun⟩

theorem moment_step {m : Machine} {made : List Value} (hm : Moment config rolls m made) {s : Step}
    (hs : s.Passes (· ∈ made)) :
    Arrives config rolls made (fun made' r => ∀ v ∈ r, v.Known made') (m.step s) := by
  have hrefl := List.suffix_refl made
  have hsome {made' : List Value} {v : Value} (hv : v.Known made') :
      Traced config rolls made' (fun made' r => ∀ v ∈ r, v.Known made') (pure (some v)) := by
    refine traced_pure fun made'' hmade => ?_
    rintro _ ⟨⟩
    exact hv.mono hmade
  cases s with
  | run source => exact (traced_program made source).arrives hm
  | evaluate e =>
    have he : e.Known made := hs.gives e rfl
    exact (traced_bind ((Level.traced_ofDepth maxDepth).expr he) fun made' v _ hv =>
      hsome hv).arrives hm
  | forms es => exact (traced_forms (by simp) hs.gives).arrives hm
  | call name args depth =>
    refine (traced_bind (traced_resolve name) fun made' f hmade hf => ?_).arrives hm
    refine traced_bind (Level.traced_apply (Level.traced_atDepth _) hf fun a ha => ?_)
      fun made'' v _ hv => hsome hv
    exact Known.mono (hs.gives a ha) hmade
  | define name v => exact ⟨made, hrefl, hm.define name (hs.gives v rfl), by rintro _ ⟨⟩; simp⟩
  | enter bindings =>
    exact ⟨made, hrefl, hm.enter fun x v hx => hs.gives v ⟨x, hx⟩, by rintro _ ⟨⟩; simp⟩
  | leave =>
    cases hleave : m.leave? with
    | none =>
      rw [Machine.step_leave_none hleave]
      exact ⟨made, hrefl, hm, nofun⟩
    | some m' =>
      obtain ⟨p, -, -, rfl⟩ := Machine.leave?_eq_some hleave
      rw [Machine.step_leave_some hleave]
      exact ⟨made, hrefl, hm.move p, by rintro _ ⟨⟩; simp⟩
  | register d =>
    exact ⟨_, List.suffix_cons _ made, hm.register (hs.register d rfl), by rintro _ ⟨⟩; simp⟩

theorem made_of_reachable {m : Machine} {made given : List Value} (ho : Orderly m made)
    (hgiven : ∀ v ∈ given, v.Known made) {f : Value} (h : Reachable m given f) : f ∈ made := by
  induction h with
  | bound hx hf => exact ho.bound _ _ _ hx _ hf
  | builtin hx hf => exact ho.builtins _ _ hx _ hf
  | given hv hf => exact hgiven _ hv _ hf
  | referred _ hr ih => exact (ho.of_refers ih hr).1

theorem moment_of_session {m : Machine} {given : List Value} (h : Session config rolls m given) :
    ∃ made, Moment config rolls m made ∧ ∀ v ∈ given, v.Known made := by
  induction h with
  | new => exact ⟨_, .new, by simp⟩
  | @step m given s _ hs ih =>
    obtain ⟨made, hm, hgiven⟩ := ih
    have hknown (f : Value) (hf : Reachable m given f) : f ∈ made :=
      made_of_reachable (orderly_of_moment hm) hgiven hf
    obtain ⟨made', hmade, hm', hanswer⟩ := moment_step hm
      ⟨fun v hv f hf => hknown f (hs.gives v hv f hf), fun d hd => (hs.register d hd).mono hknown⟩
    refine ⟨made', hm', ?_⟩
    intro v hv
    obtain hv | hv := List.mem_append.1 hv
    · unfold Machine.answer at hv
      split at hv
      · rename_i w hw
        obtain rfl := List.mem_singleton.1 hv
        exact hanswer _ hw v rfl
      · cases hv
    · exact (hgiven v hv).mono hmade
  | make b _ ih =>
    obtain ⟨made, hm, hgiven⟩ := ih
    refine ⟨_, hm.make b, List.forall_mem_cons.2 ⟨known_native.2 List.mem_cons_self, ?_⟩⟩
    exact fun v hv => (hgiven v hv).mono (List.suffix_cons _ made)

/-- Order in the graph of functions. At every moment of a session, a function of the program that can be
come by has captured a root scope without its own name; all functions that references lead to from it were
made before it, so that none leads back; and a new one equals nothing there was. -/
theorem function_graph_ordered (config : ReaderConfig) (rolls : Nat → UInt64) :
    (∀ m given, Session config rolls m given →
      ∃ made, Moment config rolls m made ∧ ∀ f, Reachable m given f → f ∈ made) ∧
    ∀ m made, Moment config rolls m made →
      (∀ h body captured, .lambda h body captured ∈ made → ∃ scope, captured = some scope ∧
        m.store.Has scope ∧ m.store.isRoot scope = true ∧ ¬ m.store.Binds scope h.name ∧
        (h.params.map Param.name).Nodup ∧ ∀ p ∈ h.params, p.ty = .any ∧ p.rest = false) ∧
      made.Nodup ∧
      (∀ f ∈ made, ∀ g, Relation.TransGen (Refers m.store) f g →
        ∃ later earlier, made = later ++ f :: earlier ∧ g ∈ earlier) ∧
      (∀ f ∈ made, ¬ Relation.TransGen (Refers m.store) f f) ∧
      (∀ depth,
        (∀ e, e.Known made → Arrives config rolls made Known (exec ((Level.ofDepth depth).expr e) m)) ∧
        (∀ items, (∀ v ∈ items, v.Known made) →
          Arrives config rolls made Known (exec ((Level.ofDepth depth).call items) m)) ∧
        (∀ f args, f.Known made → (∀ v ∈ args, v.Known made) →
          Arrives config rolls made Known (exec ((Level.ofDepth depth).apply f args) m)) ∧
        ∀ form operands, (∀ v ∈ operands, v.Known made) →
          Arrives config rolls made Known (exec ((Level.ofDepth depth).special form operands) m)) ∧
      ∀ operands f m', (∀ v ∈ operands, v.Known made) →
        exec (Level.functionDefinition operands) m = (.ok f, m') →
        Moment config rolls m' (f :: made) ∧ ∀ v, v.Known made → (f == v) = false := by
  constructor
  · intro m given hsession
    obtain ⟨made, hm, hgiven⟩ := moment_of_session hsession
    exact ⟨made, hm, fun f hf => made_of_reachable (orderly_of_moment hm) hgiven hf⟩
  · intro m made hm
    have ho := orderly_of_moment hm
    refine ⟨fun h body captured hf => ?_, ho.nodup, fun f hf g hg => ?_, fun f hf hcycle => ?_,
      fun depth => ?_, ?_⟩
    · obtain ⟨scope, rfl, hs⟩ := ho.closed h body captured hf
      obtain ⟨names, hnames, hparams⟩ := hs.params
      refine ⟨scope, rfl, hs.has, by simp [Store.isRoot, Store.parent?, hs.outer], by simp [Store.Binds, hs.unnamed],
        ?_, ?_⟩
      · simpa [hparams, Function.comp_def] using hnames
      · simp [hparams]
    · obtain ⟨hgmade, hlt⟩ := ho.of_transGen hf hg
      exact ho.made_before hf hgmade hlt
    · exact Nat.lt_irrefl _ (ho.of_transGen hf hcycle).2
    · have hk : (Level.ofDepth depth).Traced config rolls := Level.traced_ofDepth depth
      exact ⟨fun e he => (hk.expr he).arrives hm, fun items hitems => (hk.call hitems).arrives hm,
        fun f args hf hargs => (Level.traced_apply hk hf hargs).arrives hm,
        fun form operands hops => (Level.traced_special hk form hops).arrives hm⟩
    · intro operands f m' hops hdef
      obtain ⟨name, names, quoted, opened, body, rfl, hnames, hfun⟩ :=
        Level.functionDefinition_eq_ok hdef
      obtain ⟨rfl, rfl⟩ := Prod.mk.inj hfun
      exact ⟨hm.defineFunction name hnames (hops body (by simp)), fun v hv => ho.not_beq rfl hv⟩

/-- A function that captures another, and one of the same name, parameters and body after it. -/
theorem function_graph_ordered_again :
    let define (m : Machine) (name : String) := m.defineFunction name [] (.symbol "f")
    let f := define (.new {} fun _ => 0) "f"
    let g := define f.2 "g"
    let again := define g.2 "g"
    Session {} (fun _ => 0) g.2 [g.1, f.1] ∧ Refers g.2.store g.1 f.1 ∧
      ¬ Relation.TransGen (Refers g.2.store) g.1 g.1 ∧
      (∃ made later earlier, Moment {} (fun _ => 0) g.2 made ∧
        made = later ++ g.1 :: earlier ∧ f.1 ∈ earlier) ∧
      (again.1 == g.1) = false := by
  intro define f g again
  have hsymbol (made : List Value) (name : String) : (Value.symbol name).Known made :=
    known_of_ty nofun nofun
  let code (name : String) : Step :=
    .evaluate (.list [.symbol "defun", .symbol name, .list [] false none, .symbol "f"] false none)
  have hpasses (known : Value → Prop) (name : String) : (code name).Passes known := by
    refine ⟨?_, nofun⟩
    rintro _ rfl h hh
    have hknown : h ∈ [] := known_list.2 (by simp [hsymbol, known_list]) h hh
    cases hknown
  have hg : Session {} (fun _ => 0) g.2 [g.1, f.1] :=
    (Session.new.step (code "f") (hpasses _ "f")).step (code "g") (hpasses _ "g")
  have hrefers : Refers g.2.store g.1 f.1 := by
    have hget : g.2.store.get ⟨2⟩ = ⟨f.2.captured "g", []⟩ := rfl
    have hf : (g.2.store.get ⟨2⟩).bindings.get? "f" = some f.1 := by
      rw [hget, Machine.get?_captured, if_neg (by decide)]
      rfl
    exact .captured List.mem_cons_self hf (.lambda _ _ _)
  obtain ⟨hsession, hmoment⟩ := function_graph_ordered {} fun _ => 0
  obtain ⟨made, hm, hmade⟩ := hsession _ _ hg
  have hgmade : g.1 ∈ made := hmade _ (.given List.mem_cons_self (.lambda _ _ _))
  obtain ⟨-, -, hbefore, hacyclic, -, hnew⟩ := hmoment _ _ hm
  obtain ⟨later, earlier, hsplit, hearlier⟩ := hbefore _ hgmade _ (.single hrefers)
  have hops : ∀ v ∈ [Value.symbol "g", .list [] false none, .symbol "f"], v.Known made := by
    simp [hsymbol, known_list]
  exact ⟨hg, hrefers, hacyclic _ hgmade, ⟨made, later, earlier, hm, hsplit, hearlier⟩,
    (hnew _ again.1 again.2 hops rfl).2 _ (known_lambda.2 hgmade)⟩

end MiniLisp
