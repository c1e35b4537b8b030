import MiniLisp.Proofs.Closure

/-! Bindings listed and bindings looked up. What is visible from a scope is put together from the
outermost scope inwards, where each scope covers what the scopes around it bind; a lookup goes the other
way and stops where it finds something. The two agree on every name (`mem_visible_iff`), so what a
function captures, which is put together from two such lists, answers as the lookups that it stands
for. -/

namespace MiniLisp

theorem map_toNat_lt {m n : String} (h : m < n) :
    m.toList.map Char.toNat < n.toList.map Char.toNat :=
  List.map_lt (fun _ _ hc => hc) (String.lt_iff.1 h)

namespace Bindings

variable {α : Type}

/-- In ordered entries a name has but one, which is the one that a lookup finds. -/
theorem mem_iff_lookup {es : List (String × α)} (h : Increasing es) {n : String} {a : α} :
    (n, a) ∈ es ↔ es.lookup n = some a := by
  induction es with
  | nil => simp
  | cons e es ih =>
    obtain ⟨hfirst, hes⟩ := List.pairwise_cons.1 h
    rw [List.mem_cons, lookup_cons, ih hes]
    by_cases hn : n = e.1
    · have hnone : es.lookup n = none := lookup_eq_none_of_lt fun x hx => hn ▸ hfirst x hx
      rw [if_pos hn, hnone, Option.some_inj, Prod.ext_iff]
      simp [hn, eq_comm]
    · have hne : (n, a) ≠ e := fun heq => hn (congrArg Prod.fst heq)
      rw [if_neg hn, or_iff_right hne]

end Bindings

namespace Store

variable (s : Store)

theorem mem_visible_iff (id : ScopeId) (n : String) (v : Value) :
    (n, v) ∈ (s.visible id).toList ↔ s.lookup id n = some v := by
  rw [← get?_visible]
  exact Bindings.mem_iff_lookup (s.visible id).increasing

theorem lookup_define_of_ne (id : ScopeId) {name n : String} (v : Value) (h : n ≠ name) (i : ScopeId) :
    (s.define id name v).lookup i n = s.lookup i n := by
  have hown (j : ScopeId) :
      ((s.define id name v).get j).bindings.get? n = (s.get j).bindings.get? n := by
    rw [get_define]
    split
    · rw [Bindings.get?_insert, if_neg h]
    · rfl
  unfold lookup chain
  rw [outer_define]
  exact congrArg (List.findSome? · _) (funext hown)

theorem lookup_addRoot (bindings : Bindings Value) (n : String) :
    (s.addRoot bindings).lookup s.fresh n = bindings.get? n := by
  have hget : (s.addRoot bindings).get s.fresh = ⟨bindings, []⟩ := (s.get_add _ _).trans (if_pos rfl)
  rw [lookup_of_outer (congrArg Scope.outer hget), hget]
  exact Option.or_none

end Store

open Eval

/-- The scope that a function captures when it is defined answers as the scopes around its definition. -/
theorem lookup_defineFunction (m : Machine) (name : String) (params : List String) (body : Value)
    {n : String} (h : n ≠ name) :
    (m.defineFunction name params body).2.store.lookup m.store.fresh n = m.bound? n := by
  change ((m.store.addRoot (m.captured name)).define m.global name _).lookup m.store.fresh n = _
  rw [Store.lookup_define_of_ne _ _ _ h, Store.lookup_addRoot, Machine.get?_captured, if_neg h]

/-- The listing of all that is visible from a scope is a view of lookup: in order of name, with just what
is looked up. So what a definition captures answers every name but the function's own as a lookup from the
current scope and then from the global one did. -/
theorem listing_matches_lookup :
    (∀ (s : Store) (id : ScopeId),
      (s.visible id).toList.Pairwise
        (fun d e => d.1.toList.map Char.toNat < e.1.toList.map Char.toNat) ∧
      ∀ n v, (n, v) ∈ (s.visible id).toList ↔ s.lookup id n = some v) ∧
    ∀ (m m₁ : Machine) (operands : List Value) (f : Value),
      exec (Level.functionDefinition operands) m = (.ok f, m₁) →
      ∃ header body captured, f = .lambda header body (some captured) ∧
        ∀ n ≠ header.name, m₁.store.lookup captured n =
          (m.store.lookup m.current n).or (m.store.lookup m.global n) := by
  constructor
  · intro s id
    exact ⟨(s.visible id).increasing.imp map_toNat_lt, s.mem_visible_iff id⟩
  · intro m m₁ operands f hdef
    obtain ⟨name, names, quoted, opened, body, -, -, hfun⟩ := Level.functionDefinition_eq_ok hdef
    obtain ⟨rfl, rfl⟩ := Prod.mk.inj hfun
    refine ⟨_, body, m.store.fresh, rfl, ?_⟩
    intro n hn
    exact lookup_defineFunction m name names body hn

/-- A function defined in the body of another: `x` is captured as the outer function captured it, not as
it is bound globally by then, and the outer function itself from the global scope. -/
theorem listing_matches_lookup_inside :
    let first := (Machine.new {} fun _ => 0).define "x" (.string "old")
    let outer := first.defineFunction "f" ["a"] .nil
    let m := (outer.2.define "x" (.string "new")).bodyStart outer.1 [.keyword "given"]
    let inner := m.defineFunction "g" [] (.symbol "x")
    m.global ∉ m.store.chain m.current ∧
      exec (Level.functionDefinition [.symbol "g", .list [] false none, .symbol "x"]) m =
        (.ok inner.1, inner.2) ∧
      (∀ v, ("x", v) ∈ (m.store.visible m.current).toList ↔ v = .string "old") ∧
      ∃ header body captured, inner.1 = .lambda header body (some captured) ∧
        inner.2.store.lookup captured "x" = some (.string "old") ∧
        inner.2.store.lookup captured "a" = some (.keyword "given") ∧
        inner.2.store.lookup captured "f" = some outer.1 := by
  intro first outer m inner
  have hdef : exec (Level.functionDefinition [.symbol "g", .list [] false none, .symbol "x"]) m =
      (.ok inner.1, inner.2) := rfl
  have houter : (m.store.get m.current).outer = [first.store.fresh] := rfl
  have hcurrent (n : String) : m.store.lookup m.current n =
      ((Bindings.ofList [("a", .keyword "given")]).get? n).or ((first.captured "f").get? n) := by
    rw [Store.lookup_of_outer houter, List.findSome?_singleton]
    rfl
  have hx : m.store.lookup m.current "x" = some (.string "old") :=
    (hcurrent "x").trans (first.get?_captured "f" "x")
  have ha : m.store.lookup m.current "a" = some (.keyword "given") := hcurrent "a"
  have hf : m.store.lookup m.current "f" = none := (hcurrent "f").trans (first.get?_captured "f" "f")
  have hglobal : m.store.lookup m.global "f" = some outer.1 := by
    subst m outer first
    rfl
  obtain ⟨hlisted, hcaptured⟩ := listing_matches_lookup
  obtain ⟨header, body, captured, hinner, hanswers⟩ := hcaptured m inner.2 _ _ hdef
  obtain ⟨rfl, -, -⟩ := Value.lambda.inj hinner
  refine ⟨by decide, hdef, fun v => ?_, _, body, captured, hinner, ?_, ?_, ?_⟩
  · rw [(hlisted m.store m.current).2, hx, Option.some_inj, eq_comm]
  · rw [hanswers "x" (by decide), hx, Option.some_or]
  · rw [hanswers "a" (by decide), ha, Option.some_or]
  · rw [hanswers "f" (by decide), hf, hglobal, Option.none_or]

end MiniLisp
