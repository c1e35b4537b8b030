import MiniLisp.Proofs.Conversion
import MiniLisp.Proofs.Lookup
import MiniLisp.Proofs.Session

/-! Frozen closures. A function captures, in a root scope of its own, what every name but its own means
where it is defined. Nothing writes to that scope again, so however much later and from wherever the
function is called, its body sees its arguments, then what was captured, then what the name means
everywhere at that time. -/

namespace MiniLisp

open Eval

structure Rooted (m : Machine) : Prop where
  has : m.store.Has m.global
  outer : (m.store.get m.global).outer = []

theorem rooted_new (config : ReaderConfig) (rolls : Nat → UInt64) :
    Rooted (Machine.new config rolls) := ⟨Nat.one_pos, rfl⟩

theorem rooted_grows {m m' : Machine} (hg : Grows m m') (h : Rooted m) : Rooted m' := by
  refine ⟨?_, ?_⟩
  · rw [hg.global]; exact hg.has _ h.has
  · rw [hg.global, hg.outer _ h.has]; exact h.outer

namespace Level

theorem paramNames_eq_ok {seen : List String} {params : List Value} {names : List String}
    (h : paramNames seen params = .ok names) :
    params = names.map Value.symbol ∧ names.Nodup ∧ ∀ n ∈ names, n ∉ seen := by
  fun_induction paramNames seen params generalizing names with
  | case1 => cases h; simp
  | case2 => simp at h
  | case3 seen name ps hseen ih =>
    cases hps : paramNames (name :: seen) ps with
    | error c => simp [hps, bind, Except.bind] at h
    | ok ns =>
      simp only [hps, bind, Except.bind, pure, Except.pure, Except.ok.injEq] at h
      obtain ⟨rfl, hnd, hfresh⟩ := ih hps
      subst h
      refine ⟨rfl, ?_, ?_⟩
      · exact List.nodup_cons.2 ⟨fun hmem => hfresh name hmem List.mem_cons_self, hnd⟩
      · intro n hn
        rcases List.mem_cons.1 hn with rfl | hn
        · exact hseen
        · exact fun hmem => hfresh n hn (List.mem_cons_of_mem _ hmem)
  | case4 => simp at h

theorem functionDefinition_eq_ok {operands : List Value} {m m₁ : Machine} {f : Value}
    (h : exec (functionDefinition operands) m = (.ok f, m₁)) :
    ∃ (name : String) (names : List String) (quoted : Bool) (opened : Option Position) (body : Value),
      operands = [.symbol name, .list (names.map .symbol) quoted opened, body] ∧
      names.Nodup ∧ m.defineFunction name names body = (f, m₁) := by
  unfold functionDefinition at h
  split at h
  · rename_i name params quoted opened body
    rw [exec_bind] at h
    cases hp : paramNames [] params with
    | error c => simp [hp] at h
    | ok names =>
      obtain ⟨rfl, hnd, -⟩ := paramNames_eq_ok hp
      rw [hp, exec_ofExcept_ok, continueWith_ok, exec_modifyGet] at h
      simp only [Prod.mk.injEq, Except.ok.injEq] at h
      exact ⟨name, names, quoted, opened, body, rfl, hnd, Prod.ext h.1 h.2⟩
  · simp at h
  · simp at h
  · simp at h

end Level

namespace Machine

/-- The machine on which the body of a function called with `args` starts. -/
def bodyStart (m : Machine) (f : Value) (args : List Value) : Machine :=
  match f with
  | .lambda h _ captured =>
    match suppliedArguments h.params args with
    | .ok bindings => { m with current := captured.getD m.global }.enter (.ofList bindings)
    | .error _ => m
  | _ => m

end Machine

theorem bodyStart_defineFunction (m m₂ : Machine) (name : String) (names : List String) (body : Value)
    (args : List Value) :
    m₂.bodyStart (m.defineFunction name names body).1 args =
      { m₂ with current := m.store.fresh }.enter (.ofList (names.zip args)) := by
  simp only [Machine.bodyStart, Machine.defineFunction, suppliedArguments_any, Option.getD_some]

/-- A call is its body run from that machine, with the caller's scope put back at the end. -/
theorem exec_apply_defineFunction (k : Level) (m m₂ : Machine) (name : String) (names : List String)
    (body : Value) (args : List Value) :
    exec (k.apply (m.defineFunction name names body).1 args) m₂ =
      let r := exec (k.body body) (m₂.bodyStart (m.defineFunction name names body).1 args)
      (r.1, { r.2 with current := m₂.current }) := by
  rw [bodyStart_defineFunction]
  change exec (k.apply (.lambda _ body (some m.store.fresh)) args) m₂ = _
  rw [exec_apply_lambda, suppliedArguments_any]
  rfl

/-- The scope that a definition captures, as it is in every later machine. -/
theorem get_captured {m m₁ m₂ : Machine} {name : String} {names : List String} {body f : Value}
    (hm : Rooted m) (hdef : m.defineFunction name names body = (f, m₁)) (hlater : Reaches m₁ m₂) :
    m₂.store.Has m.store.fresh ∧ m₂.store.get m.store.fresh = ⟨m.captured name, []⟩ := by
  have hne : m.store.fresh ≠ m.global := fun heq => m.store.not_has_fresh (heq ▸ hm.has)
  obtain ⟨-, rfl⟩ := Prod.mk.inj hdef
  have hg := grows_reaches hlater
  have hhas : (m.store.addRoot (m.captured name)).Has m.store.fresh :=
    (m.store.has_add _ _).2 (Or.inl rfl)
  have hhas₁ := ((m.store.addRoot (m.captured name)).has_define m.global name
    (m.defineFunction name names body).1 _).2 hhas
  refine ⟨hg.has _ hhas₁, ?_⟩
  rw [hg.get _ hhas₁ hne]
  change ((m.store.addRoot (m.captured name)).define m.global name _).get m.store.fresh = _
  rw [Store.get_define, if_neg fun h => hne h.1]
  exact (m.store.get_add _ _).trans (if_pos rfl)

/-- Names in a scope entered from a root scope: its own bindings, those of the root, and what the name
means everywhere. -/
theorem resolve_enter_root {m : Machine} (hm : Rooted m) {root : ScopeId} {b : Bindings Value}
    (hhas : m.store.Has root) (hget : m.store.get root = ⟨b, []⟩) (bindings : Bindings Value)
    (x : String) :
    ({ m with current := root }.enter bindings).resolve x =
      match (bindings.get? x).or (b.get? x) with
      | some v => .ok v
      | none => m.resolveGlobal x := by
  have hold : ∀ id, m.store.Has id →
      (m.store.addIn root bindings).get id = m.store.get id := by
    intro id hid
    refine (m.store.get_add _ id).trans (if_neg ?_)
    rintro rfl
    exact m.store.not_has_fresh hid
  have hnew : (m.store.addIn root bindings).get m.store.fresh = ⟨bindings, [root]⟩ := by
    refine (m.store.get_add _ _).trans ((if_pos rfl).trans ?_)
    unfold Store.chain
    rw [hget]
  have hcurrent : (m.store.addIn root bindings).lookup m.store.fresh x =
      (bindings.get? x).or (b.get? x) := by
    rw [Store.lookup_of_outer (by rw [hnew]), hnew]
    simp [hold root hhas, hget]
  have hglobal : (m.store.addIn root bindings).lookup m.global x = m.store.lookup m.global x := by
    rw [Store.lookup_of_outer ((congrArg Scope.outer (hold _ hm.has)).trans hm.outer),
      Store.lookup_of_outer hm.outer, hold _ hm.has]
    rfl
  have hrest : ({ m with current := root }.enter bindings).resolveGlobal x = m.resolveGlobal x :=
    Machine.resolveGlobal_congr hglobal rfl
  rw [Machine.resolve_eq, hrest, ← hcurrent]
  rfl

theorem resolve_bodyStart {m m₁ m₂ : Machine} {name : String} {names : List String} {body f : Value}
    (hm : Rooted m) (hdef : m.defineFunction name names body = (f, m₁)) (hlater : Reaches m₁ m₂)
    (args : List Value) (x : String) :
    (m₂.bodyStart f args).resolve x =
      match ((Bindings.ofList (names.zip args)).get? x).or (if x = name then none else m.bound? x) with
      | some v => .ok v
      | none => m₂.resolveGlobal x := by
  obtain ⟨hhas, hget⟩ := get_captured hm hdef hlater
  have hm₁ : Grows m m₁ := by
    obtain ⟨-, rfl⟩ := Prod.mk.inj hdef
    exact grows_change (.defineFunction m name names body)
  have hm₂ := rooted_grows (grows_reaches hlater) (rooted_grows hm₁ hm)
  have hf : (m.defineFunction name names body).1 = f := congrArg Prod.fst hdef
  rw [← hf, bodyStart_defineFunction, resolve_enter_root hm₂ hhas hget, Machine.get?_captured]

/-- Frozen closures. In the body of a function, a parameter that has an argument means the argument; any
other name that was bound at the definition means what it meant there, the function's own apart; and the
rest mean what they mean everywhere at the time of the call. -/
theorem closure_frozen {config : ReaderConfig} {rolls : Nat → UInt64} {m m₁ m₂ : Machine}
    {operands : List Value} {f : Value} (hm : Reaches (Machine.new config rolls) m)
    (hdef : exec (Level.functionDefinition operands) m = (.ok f, m₁)) (hlater : Reaches m₁ m₂) :
    ∃ (name : String) (names : List String) (quoted : Bool) (opened : Option Position) (body : Value),
      operands = [.symbol name, .list (names.map .symbol) quoted opened, body] ∧
      ∀ args : List Value,
        (∀ k : Level, exec (k.apply f args) m₂ =
          let r := exec (k.body body) (m₂.bodyStart f args)
          (r.1, { r.2 with current := m₂.current })) ∧
        (∀ (x : String) (i : Nat) (a : Value), names[i]? = some x → args[i]? = some a →
          (m₂.bodyStart f args).resolve x = .ok a) ∧
        (∀ x : String, (∀ i : Nat, names[i]? = some x → args.length ≤ i) →
          (∀ v, x ≠ name → m.bound? x = some v → (m₂.bodyStart f args).resolve x = .ok v) ∧
          (x = name ∨ m.bound? x = none →
            (m₂.bodyStart f args).resolve x = m₂.resolveGlobal x)) ∧
        ∀ (k : Level) (args' : List Value) (scope : ScopeId),
          args'.take names.length = args.take names.length →
          exec (k.apply f args') { m₂ with current := scope } =
            let r := exec (k.apply f args) m₂
            (r.1, { r.2 with current := scope }) := by
  obtain ⟨name, names, quoted, opened, body, hoperands, hnd, hfun⟩ :=
    Level.functionDefinition_eq_ok hdef
  have hroot := rooted_grows (grows_reaches hm) (rooted_new config rolls)
  have hf : (m.defineFunction name names body).1 = f := congrArg Prod.fst hfun
  refine ⟨name, names, quoted, opened, body, hoperands, ?_⟩
  intro args
  refine ⟨?_, ?_, ?_, ?_⟩
  · intro k
    rw [← hf]
    exact exec_apply_defineFunction k m m₂ name names body args
  · intro x i a hx ha
    rw [resolve_bodyStart hroot hfun hlater, Bindings.get?_ofList_zip hnd hx ha]
    rfl
  · intro x hx
    rw [resolve_bodyStart hroot hfun hlater, Bindings.get?_ofList_zip_eq_none hx, Option.none_or]
    constructor
    · intro v hne hv
      rw [if_neg hne, hv]
    · rintro (rfl | h)
      · rw [if_pos rfl]
      · rw [h, ite_self]
  · intro k args' scope htake
    -- both calls start their body on the same machine
    have hstart : { m₂ with current := scope }.bodyStart f args' = m₂.bodyStart f args := by
      rw [← hf, bodyStart_defineFunction, bodyStart_defineFunction, ← Bindings.zip_take names args',
        htake, Bindings.zip_take]
    rw [← hf] at hstart ⊢
    rw [exec_apply_defineFunction, exec_apply_defineFunction, hstart]

/-- A function defined where a local `y` hides the global one keeps it after the scope is left and the
global one has changed, and sees its argument under the name of its parameter. -/
theorem closure_frozen_local :
    let m := (Machine.new {} fun _ => 0).enter (.ofList [("y", .string "old")])
    let d := m.defineFunction "f" ["a"] (.symbol "y")
    let m₂ := d.2.steps [.leave, .define "y" (.string "new"), .define "a" (.string "global")]
    exec (Level.functionDefinition [.symbol "f", .list [.symbol "a"] false none, .symbol "y"]) m =
        (.ok d.1, d.2) ∧
      Reaches d.2 m₂ ∧
      (m₂.bodyStart d.1 [.nil]).resolve "y" = .ok (.string "old") ∧
      (m₂.bodyStart d.1 [.nil]).resolve "a" = .ok .nil := by
  intro m d m₂
  have hm : Reaches (Machine.new {} fun _ => 0) m := Reaches.refl.change (.enter _ _)
  have hdef : exec (Level.functionDefinition
      [.symbol "f", .list [.symbol "a"] false none, .symbol "y"]) m = (.ok d.1, d.2) := rfl
  have hlater : Reaches d.2 m₂ := Machine.reaches_steps _ _
  obtain ⟨name, names, quoted, opened, body, hoperands, hcall⟩ := closure_frozen hm hdef hlater
  simp only [List.cons.injEq, Value.symbol.injEq, Value.list.injEq] at hoperands
  obtain ⟨rfl, ⟨hnames, -⟩, -⟩ := hoperands
  obtain rfl : ["a"] = names := (List.map_inj_right fun _ _ => Value.symbol.inj).1 hnames
  obtain ⟨-, hparam, hother, -⟩ := hcall [.nil]
  refine ⟨hdef, hlater, ?_, hparam "a" 0 .nil rfl rfl⟩
  refine (hother "y" fun i hi => ?_).1 _ (by decide) rfl
  cases i with
  | zero => simp at hi
  | succ i => simp at hi

end MiniLisp
