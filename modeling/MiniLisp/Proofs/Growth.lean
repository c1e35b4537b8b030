import Mathlib.Logic.Relation
import MiniLisp.Proofs.Execution

/-! The store of scopes only grows. Whatever happens to a machine is a row of changes, and a change
writes to no scope but the global one and moves no scope to another place: `grows_reaches`. What holds
of a scope when it is made therefore holds of it ever after, unless it is the global one. -/

namespace MiniLisp

namespace Store

variable (s : Store)

/-- The scope is in the store. -/
def Has (id : ScopeId) : Prop := id.index < s.scopes.size

instance (id : ScopeId) : Decidable (s.Has id) := inferInstanceAs (Decidable (_ < _))

theorem has_add (scope : Scope) (id : ScopeId) : (s.add scope).Has id ↔ id = s.fresh ∨ s.Has id := by
  obtain ⟨i⟩ := id
  simp only [Has, add, fresh, Array.size_push, ScopeId.mk.injEq]
  omega

theorem has_define (id : ScopeId) (name : String) (v : Value) (i : ScopeId) :
    (s.define id name v).Has i ↔ s.Has i := by
  simp [Has, define]

theorem not_has_fresh : ¬ s.Has s.fresh := Nat.lt_irrefl _

theorem get_add (scope : Scope) (id : ScopeId) :
    (s.add scope).get id = if id = s.fresh then scope else s.get id := by
  obtain ⟨i⟩ := id
  by_cases h : i = s.scopes.size
  · simp [get, add, fresh, h]
  · simp [get, add, fresh, h, Array.getElem?_push]

theorem get_define (id : ScopeId) (name : String) (v : Value) (i : ScopeId) :
    (s.define id name v).get i =
      if i = id ∧ s.Has id then { s.get i with bindings := (s.get i).bindings.insert name v }
      else s.get i := by
  obtain ⟨i⟩ := i
  obtain ⟨j⟩ := id
  simp only [get, define, Array.getElem?_modify]
  by_cases hij : i = j
  · subst hij
    by_cases h : i < s.scopes.size <;> simp [Has, h]
  · simp [hij, Ne.symm hij]

theorem outer_define (id : ScopeId) (name : String) (v : Value) (i : ScopeId) :
    ((s.define id name v).get i).outer = (s.get i).outer := by
  rw [get_define]; split <;> rfl

end Store

/-- One thing that happens to a machine in the course of an evaluation. Leaving a scope and going to
that of a function are both a `move`. -/
inductive Change : Machine → Machine → Prop
  | define (m : Machine) (name : String) (v : Value) : Change m (m.define name v)
  | defineFunction (m : Machine) (name : String) (params : List String) (body : Value) :
    Change m (m.defineFunction name params body).2
  | enter (m : Machine) (bindings : Bindings Value) : Change m (m.enter bindings)
  | move (m : Machine) (id : ScopeId) : Change m { m with current := id }
  | perform (m : Machine) (w : World) : Change m { m with world := w }

/-- An evaluation may take the first machine to the second. -/
def Evolves : Machine → Machine → Prop := Relation.ReflTransGen Change

/-- A session may take the first machine to the second, at its end or on the way: besides evaluations
there are operations that the host registers. -/
inductive Reaches (m : Machine) : Machine → Prop
  | refl : Reaches m m
  | change {m' m'' : Machine} : Reaches m m' → Change m' m'' → Reaches m m''
  | register {m' : Machine} (d : Definition) : Reaches m m' → Reaches m (m'.register d)

theorem Evolves.reaches {m m' m'' : Machine} (h : Reaches m m') (he : Evolves m' m'') :
    Reaches m m'' := by
  induction he with
  | refl => exact h
  | tail _ hc ih => exact ih.change hc

theorem Reaches.trans {m m' m'' : Machine} (h : Reaches m m') (h' : Reaches m' m'') :
    Reaches m m'' := by
  induction h' with
  | refl => exact h
  | change _ hc ih => exact ih.change hc
  | register d _ ih => exact ih.register d

/-- Every scope of the first machine is one of the second, in the same place, and only the global one
may have other bindings there. -/
structure Grows (m m' : Machine) : Prop where
  global : m'.global = m.global
  has : ∀ id, m.store.Has id → m'.store.Has id
  outer : ∀ id, m.store.Has id → (m'.store.get id).outer = (m.store.get id).outer
  get : ∀ id, m.store.Has id → id ≠ m.global → m'.store.get id = m.store.get id

theorem Grows.refl (m : Machine) : Grows m m :=
  ⟨rfl, fun _ h => h, fun _ _ => rfl, fun _ _ _ => rfl⟩

theorem Grows.trans {m m' m'' : Machine} (h : Grows m m') (h' : Grows m' m'') : Grows m m'' where
  global := h'.global.trans h.global
  has id hid := h'.has id (h.has id hid)
  outer id hid := (h'.outer id (h.has id hid)).trans (h.outer id hid)
  get id hid hne := (h'.get id (h.has id hid) (h.global ▸ hne)).trans (h.get id hid hne)

theorem grows_of_store {m m' : Machine} (hg : m'.global = m.global) (hs : m'.store = m.store) :
    Grows m m' :=
  ⟨hg, fun _ h => hs ▸ h, fun _ _ => by rw [hs], fun _ _ _ => by rw [hs]⟩

theorem grows_add (m : Machine) (scope : Scope) (current : ScopeId) :
    Grows m { m with store := m.store.add scope, current := current } := by
  have hget : ∀ id, m.store.Has id → (m.store.add scope).get id = m.store.get id := by
    intro id hid
    rw [Store.get_add, if_neg]
    rintro rfl
    exact m.store.not_has_fresh hid
  exact ⟨rfl, fun id hid => (m.store.has_add scope id).2 (Or.inr hid),
    fun id hid => by rw [hget id hid], fun id hid _ => hget id hid⟩

theorem grows_define (m : Machine) (name : String) (v : Value) : Grows m (m.define name v) := by
  refine ⟨rfl, fun id hid => (m.store.has_define _ name v id).2 hid,
    fun id _ => m.store.outer_define _ name v id, fun id _ hne => ?_⟩
  change (m.store.define m.global name v).get id = _
  rw [Store.get_define, if_neg fun h => hne h.1]

theorem grows_change {m m' : Machine} (h : Change m m') : Grows m m' := by
  cases h with
  | define name v => exact grows_define m name v
  | defineFunction name params body =>
    -- a root scope for what it captures, then a definition
    have hadd := grows_add m ⟨m.captured name, []⟩ m.current
    have hdef := grows_define { m with store := m.store.addRoot (m.captured name) } name
      (m.defineFunction name params body).1
    exact hadd.trans (hdef.trans (grows_of_store rfl rfl))
  | enter bindings => exact grows_add m ⟨bindings, m.store.chain m.current⟩ m.store.fresh
  | move id => exact grows_of_store rfl rfl
  | perform w => exact grows_of_store rfl rfl

theorem grows_evolves {m m' : Machine} (h : Evolves m m') : Grows m m' := by
  induction h with
  | refl => exact Grows.refl m
  | tail _ hc ih => exact ih.trans (grows_change hc)

theorem grows_reaches {m m' : Machine} (h : Reaches m m') : Grows m m' := by
  induction h with
  | refl => exact Grows.refl m
  | change _ hc ih => exact ih.trans (grows_change hc)
  | register d _ ih => exact ih.trans (grows_of_store rfl rfl)

end MiniLisp
