import MiniLisp.Proofs.Balance

/-! Sessions. Of all that a host asks of an interpreter, only entering and leaving a scope move the
current one: the path from the current scope out is the first path changed by the scopes that were
entered and left, and by nothing else (`path_steps`). What is entered and not left lies inside the
global scope (`path_new`). -/

namespace MiniLisp

namespace Eval

theorem balanced_expression (e : Value) : Balanced (expression e) :=
  (Level.balanced_ofDepth maxDepth).expr e

theorem balanced_forms (last : Option Value) (es : List Value) : Balanced (forms last es) := by
  induction es generalizing last with
  | nil => exact balanced_pure last
  | cons e es ih => exact balanced_bind (balanced_expression e) fun v => ih (some v)

theorem balanced_reading (err : ReadError) : Balanced (throw (.reading err) : Eval (Option Value)) :=
  fun _ => ⟨rfl, .refl, by simp⟩

theorem balanced_program (source : String) : Balanced (program source) := by
  refine balanced_bind balanced_get ?_
  intro m
  split
  · exact balanced_forms none _
  · exact balanced_reading _

theorem balanced_call (f : Value) (args : List Value) (depth : UInt64) :
    Balanced (call f args depth) :=
  Level.balanced_apply (Level.balanced_atDepth _) f args

end Eval

open Eval

namespace Step

/-- Asks to enter or to leave a scope. -/
def moves : Step → Bool
  | enter _ | leave => true
  | _ => false

theorem perform_balanced_or_register {s : Step} (h : s.moves = false) :
    Balanced s.perform ∨ ∃ d, s = .register d := by
  cases s with
  | run source => exact Or.inl (balanced_program source)
  | evaluate e =>
    exact Or.inl (balanced_bind (balanced_expression e) fun v => balanced_pure (some v))
  | forms es => exact Or.inl (balanced_forms none es)
  | call name args depth =>
    refine Or.inl (balanced_bind (balanced_resolve name) ?_)
    intro f
    exact balanced_bind (balanced_call f args depth) fun v => balanced_pure (some v)
  | define name v => exact Or.inl (balanced_bind (balanced_define name v) fun _ => balanced_pure none)
  | register d => exact Or.inr ⟨d, rfl⟩
  | enter => simp [moves] at h
  | leave => simp [moves] at h

end Step

namespace Machine

theorem step_enter (m : Machine) (bindings : Bindings Value) :
    m.step (.enter bindings) = (.ok none, m.enter bindings) := rfl

theorem step_register (m : Machine) (d : Definition) :
    m.step (.register d) = (.ok none, m.register d) := rfl

theorem step_leave_some {m m' : Machine} (h : m.leave? = some m') :
    m.step .leave = (.ok none, m') := by
  change exec (Eval.leave >>= fun _ => pure none) m = _
  rw [exec_bind, exec_leave_some h, continueWith_ok, exec_pure]

theorem step_leave_none {m : Machine} (h : m.leave? = none) :
    m.step .leave = (.error .leftRoot, m) := by
  change exec (Eval.leave >>= fun _ => pure none) m = _
  rw [exec_bind, exec_leave_none h, continueWith_error]

theorem leave?_eq_some {m m' : Machine} (h : m.leave? = some m') :
    ∃ p ps, (m.store.get m.current).outer = p :: ps ∧ m' = { m with current := p } := by
  unfold leave? Store.parent? at h
  cases houter : (m.store.get m.current).outer with
  | nil => simp [houter] at h
  | cons p ps =>
    simp only [houter, List.head?_cons, Option.some.injEq] at h
    exact ⟨p, ps, rfl, h.symm⟩

theorem leave?_eq_none {m : Machine} : m.leave? = none ↔ m.store.isRoot m.current := by
  unfold leave? Store.isRoot
  cases m.store.parent? m.current <;> simp

theorem current_step (m : Machine) {s : Step} (h : s.moves = false) :
    (m.step s).2.current = m.current ∧ (m.step s).1 ≠ .error .leftRoot := by
  obtain hb | ⟨d, rfl⟩ := Step.perform_balanced_or_register h
  · exact ⟨(hb m).current, (hb m).inside⟩
  · rw [step_register]; exact ⟨rfl, by simp⟩

theorem reaches_step (m : Machine) (s : Step) : Reaches m (m.step s).2 := by
  cases h : s.moves with
  | false =>
    obtain hb | ⟨d, rfl⟩ := Step.perform_balanced_or_register h
    · exact (hb m).evolves.reaches .refl
    · exact Reaches.refl.register d
  | true =>
    cases s with
    | enter bindings => exact Reaches.refl.change (.enter m bindings)
    | leave =>
      cases hl : m.leave? with
      | none => rw [step_leave_none hl]; exact .refl
      | some m' =>
        obtain ⟨p, ps, -, rfl⟩ := leave?_eq_some hl
        rw [step_leave_some hl]
        exact Reaches.refl.change (.move m p)
    | _ => simp [Step.moves] at h

theorem reaches_steps (m : Machine) (ss : List Step) : Reaches m (m.steps ss) := by
  induction ss generalizing m with
  | nil => exact .refl
  | cons s ss ih => exact (reaches_step m s).trans (ih (m.step s).2)

/-- The current scope and all it lies in, nearest first. -/
def path (m : Machine) : List ScopeId := m.store.chain m.current

end Machine

/-- What a step does to the path. -/
inductive Move where
  | into (id : ScopeId)
  | out
deriving DecidableEq

namespace Move

def follow : List ScopeId → Move → List ScopeId
  | path, into id => id :: path
  | path, out => path.tail

def isInto : Move → Bool
  | into _ => true
  | out => false

@[simp] theorem isInto_into (id : ScopeId) : (into id).isInto = true := rfl

@[simp] theorem isInto_out : out.isInto = false := rfl

end Move

namespace Machine

/-- The move of a step: a scope entered, or one left with success. -/
def move? (m : Machine) (s : Step) : Option Move :=
  match s, (m.step s).1 with
  | .enter _, .ok _ => some (.into m.store.fresh)
  | .leave, .ok _ => some .out
  | _, _ => none

/-- The moves of a session. -/
def moves (m : Machine) : List Step → List Move
  | [] => []
  | s :: ss => (m.move? s).toList ++ (m.step s).2.moves ss

theorem move?_eq_none (m : Machine) {s : Step} (h : s.moves = false) : m.move? s = none := by
  cases s with
  | enter => simp [Step.moves] at h
  | leave => simp [Step.moves] at h
  | _ => rfl

theorem move?_enter (m : Machine) (bindings : Bindings Value) :
    m.move? (.enter bindings) = some (.into m.store.fresh) := rfl

theorem move?_leave_some {m m' : Machine} (h : m.leave? = some m') : m.move? .leave = some .out := by
  simp [move?, step_leave_some h]

theorem move?_leave_none {m : Machine} (h : m.leave? = none) : m.move? .leave = none := by
  simp [move?, step_leave_none h]

end Machine

/-- A path through scopes of the store, each of which lies in those after it. -/
def Store.Nested (s : Store) : List ScopeId → Prop
  | [] => True
  | id :: ids => s.Has id ∧ (s.get id).outer = ids ∧ s.Nested ids

theorem nested_grows {m m' : Machine} (hg : Grows m m') {ids : List ScopeId}
    (h : m.store.Nested ids) : m'.store.Nested ids := by
  induction ids with
  | nil => trivial
  | cons id ids ih =>
    obtain ⟨hhas, houter, hrest⟩ := h
    exact ⟨hg.has id hhas, (hg.outer id hhas).trans houter, ih hrest⟩

theorem path_grows {m m' : Machine} (hg : Grows m m') (hc : m'.current = m.current)
    (h : m.store.Nested m.path) : m'.path = m.path := by
  unfold Machine.path Store.chain
  rw [hc, hg.outer _ h.1]

theorem path_enter (m : Machine) (bindings : Bindings Value) :
    (m.enter bindings).path = m.store.fresh :: m.path := by
  change m.store.fresh :: ((m.store.add ⟨bindings, m.path⟩).get m.store.fresh).outer = _
  rw [Store.get_add, if_pos rfl]

theorem nested_enter {m : Machine} (bindings : Bindings Value) (h : m.store.Nested m.path) :
    (m.enter bindings).store.Nested (m.enter bindings).path := by
  have hg := grows_change (Change.enter m bindings)
  have hp := path_enter m bindings
  rw [hp]
  refine ⟨(m.store.has_add _ _).2 (Or.inl rfl), ?_, nested_grows hg h⟩
  exact (List.cons.inj hp).2

/-- One step moves the path as its move says, and the path stays one through the store. -/
theorem path_step {m : Machine} (s : Step) (h : m.store.Nested m.path) :
    (m.step s).2.path = (m.move? s).toList.foldl Move.follow m.path ∧
      (m.step s).2.store.Nested (m.step s).2.path := by
  cases hs : s.moves with
  | false =>
    have hg := grows_reaches (m.reaches_step s)
    have hp := path_grows hg (m.current_step hs).1 h
    rw [m.move?_eq_none hs, hp]
    exact ⟨rfl, nested_grows hg h⟩
  | true =>
    cases s with
    | enter bindings => exact ⟨path_enter m bindings, nested_enter bindings h⟩
    | leave =>
      cases hl : m.leave? with
      | none =>
        rw [Machine.step_leave_none hl, Machine.move?_leave_none hl]
        exact ⟨rfl, h⟩
      | some m' =>
        rw [Machine.step_leave_some hl, Machine.move?_leave_some hl]
        obtain ⟨p, ps, houter, rfl⟩ := Machine.leave?_eq_some hl
        have hpath : m.path = m.current :: p :: ps := by
          change m.current :: (m.store.get m.current).outer = _
          rw [houter]
        rw [hpath] at h ⊢
        obtain ⟨-, -, hhas, houter', hrest⟩ := h
        have hpath' : ({ m with current := p } : Machine).path = p :: ps := by
          change p :: (m.store.get p).outer = _
          rw [houter']
        rw [hpath']
        exact ⟨rfl, hhas, houter', hrest⟩
    | _ => simp [Step.moves] at hs

theorem path_steps {m : Machine} (ss : List Step) (h : m.store.Nested m.path) :
    (m.steps ss).path = (m.moves ss).foldl Move.follow m.path := by
  induction ss generalizing m with
  | nil => rfl
  | cons s ss ih =>
    obtain ⟨hp, hn⟩ := path_step s h
    rw [Machine.steps_cons, ih hn, Machine.moves, List.foldl_append, hp]

theorem path_of_move?_out {m : Machine} {s : Step} (h : m.move? s = some .out) :
    ∃ p ps, m.path = m.current :: p :: ps := by
  cases s with
  | leave =>
    cases hl : m.leave? with
    | none => simp [Machine.move?_leave_none hl] at h
    | some m' =>
      obtain ⟨p, ps, houter, -⟩ := Machine.leave?_eq_some hl
      refine ⟨p, ps, ?_⟩
      rw [← houter]; rfl
  | enter bindings => simp [Machine.move?_enter] at h
  | _ => simp [Machine.move?] at h

theorem entered_steps {m : Machine} {entered : List ScopeId} {g : ScopeId} (ss : List Step)
    (h : m.store.Nested m.path) (hp : m.path = entered ++ [g]) :
    ∃ entered', (m.steps ss).path = entered' ++ [g] ∧
      entered'.length + (m.moves ss).countP (!·.isInto) =
        entered.length + (m.moves ss).countP Move.isInto := by
  induction ss generalizing m entered with
  | nil => exact ⟨entered, hp, rfl⟩
  | cons s ss ih =>
    obtain ⟨hstep, hn⟩ := path_step s h
    simp only [Machine.steps_cons, Machine.moves, List.countP_append]
    cases hmove : m.move? s with
    | none =>
      rw [hmove] at hstep
      simpa using ih hn (hstep.trans hp)
    | some move =>
      rw [hmove] at hstep
      cases move with
      | into id =>
        have hp' : (m.step s).2.path = (id :: entered) ++ [g] := by
          rw [hstep, hp]; rfl
        obtain ⟨entered', hpath, hcount⟩ := ih hn hp'
        refine ⟨entered', hpath, ?_⟩
        simp only [List.length_cons] at hcount
        simp; omega
      | out =>
        obtain ⟨p, ps, hpath⟩ := path_of_move?_out hmove
        cases entered with
        | nil => simp [hp] at hpath
        | cons e es =>
          have hp' : (m.step s).2.path = es ++ [g] := by
            rw [hstep, hp]; rfl
          obtain ⟨entered', hpath, hcount⟩ := ih hn hp'
          refine ⟨entered', hpath, ?_⟩
          simp; omega

theorem path_new (config : ReaderConfig) (rolls : Nat → UInt64) :
    (Machine.new config rolls).path = [(Machine.new config rolls).global] := rfl

theorem nested_new (config : ReaderConfig) (rolls : Nat → UInt64) :
    (Machine.new config rolls).store.Nested (Machine.new config rolls).path :=
  ⟨Nat.one_pos, rfl, trivial⟩

/-- Scope balance. Every part of an evaluation ends in the scope where it starts, with any number of
levels left and however it ends, and never because the outermost scope was to be left. In a session the
current scope follows from the scopes entered and left alone. -/
theorem scopes_balanced :
    (∀ (m : Machine) (depth : Nat),
      (∀ e, Restores m (exec ((Level.ofDepth depth).expr e) m)) ∧
      (∀ items, Restores m (exec ((Level.ofDepth depth).call items) m)) ∧
      (∀ v, Restores m (exec ((Level.ofDepth depth).body v) m)) ∧
      (∀ f args, Restores m (exec ((Level.ofDepth depth).apply f args) m)) ∧
      (∀ form operands, Restores m (exec ((Level.ofDepth depth).special form operands) m))) ∧
    (∀ (config : ReaderConfig) (rolls : Nat → UInt64) (ss : List Step),
      let m := Machine.new config rolls
      (m.steps ss).path = (m.moves ss).foldl Move.follow [m.global] ∧
      ((m.moves ss).countP Move.isInto = (m.moves ss).countP (!·.isInto) →
        (m.steps ss).current = (m.steps ss).global)) ∧
    ∀ (m : Machine) (s : Step),
      (m.step s).1 = .error .leftRoot ↔ s = .leave ∧ m.store.isRoot m.current := by
  refine ⟨?_, ?_, ?_⟩
  · intro m depth
    have hk := Level.balanced_ofDepth depth
    exact ⟨fun e => hk.expr e m, fun items => hk.call items m,
      fun v => Level.balanced_body hk v m, fun f args => Level.balanced_apply hk f args m,
      fun form operands => Level.balanced_special hk form operands m⟩
  · intro config rolls ss
    have hn := nested_new config rolls
    refine ⟨path_steps ss hn, ?_⟩
    intro hcount
    have hglobal : (Machine.new config rolls).path = [] ++ [(Machine.new config rolls).global] :=
      path_new config rolls
    obtain ⟨entered, hpath, hlen⟩ := entered_steps ss hn hglobal
    have hnil : entered = [] := List.eq_nil_of_length_eq_zero (by simp at hlen; omega)
    rw [hnil] at hpath
    rw [(grows_reaches (Machine.reaches_steps _ ss)).global]
    exact (List.cons.inj hpath).1
  · intro m s
    constructor
    · intro h
      cases hs : s.moves with
      | false => exact absurd h (m.current_step hs).2
      | true =>
        cases s with
        | enter bindings => simp [Machine.step_enter] at h
        | leave =>
          cases hl : m.leave? with
          | some m' => simp [Machine.step_leave_some hl] at h
          | none => exact ⟨rfl, Machine.leave?_eq_none.1 hl⟩
        | _ => simp [Step.moves] at hs
    · rintro ⟨rfl, hroot⟩
      rw [Machine.step_leave_none (Machine.leave?_eq_none.2 hroot)]

end MiniLisp
