import Mathlib.Data.List.Forall2
import MiniLisp.Machine

/-! Positions erased. `Value.reposition` changes the positions of all lists in a value and `Value.bare`
takes them away; what is printed of a value does not depend on them. A store and a machine are bare when
all the values in them are, and everything that happens to a machine happens to the bare machine in the
same way: each equation here takes an erasure past one operation. -/

namespace MiniLisp

namespace Value

mutual

/-- The value with `f` applied to the position of every list in it, those in the bodies of functions
too. -/
def reposition (f : Option Position → Option Position) : Value → Value
  | list items quoted opened => list (repositions f items) quoted (f opened)
  | lambda h body captured => lambda h (reposition f body) captured
  | v => v

def repositions (f : Option Position → Option Position) : List Value → List Value
  | [] => []
  | v :: vs => reposition f v :: repositions f vs

end

/-- The value without positions. -/
def bare (v : Value) : Value := v.reposition fun _ => none

/-- The values differ in positions at most. -/
def Similar (v w : Value) : Prop := v.bare = w.bare

theorem repositions_eq_map (f : Option Position → Option Position) (vs : List Value) :
    repositions f vs = vs.map (reposition f) := by
  induction vs with
  | nil => rfl
  | cons v vs ih => rw [repositions, ih, List.map_cons]

theorem reposition_list (f : Option Position → Option Position) (items : List Value) (quoted : Bool)
    (opened : Option Position) :
    (list items quoted opened).reposition f = list (items.map (reposition f)) quoted (f opened) := by
  rw [reposition, repositions_eq_map]

mutual

theorem reposition_reposition (f g : Option Position → Option Position) :
    ∀ v : Value, (v.reposition g).reposition f = v.reposition (f ∘ g)
  | list items quoted opened => by
    rw [reposition, reposition, reposition, repositions_repositions f g items]
    rfl
  | lambda h body captured => by
    rw [reposition, reposition, reposition, reposition_reposition f g body]
  | nil | bool _ | number _ | string _ | symbol _ | keyword _ | native .. | special _ => rfl

theorem repositions_repositions (f g : Option Position → Option Position) :
    ∀ vs : List Value, repositions f (repositions g vs) = repositions (f ∘ g) vs
  | [] => rfl
  | v :: vs => by
    rw [repositions, repositions, repositions, reposition_reposition f g v,
      repositions_repositions f g vs]

end

mutual

theorem code_reposition (f : Option Position → Option Position) :
    ∀ v : Value, (v.reposition f).code = v.code
  | list items quoted _ =>
    congrArg (fun cs => openingText quoted ++ Text.joined " " cs ++ ")") (codes_repositions f items)
  | lambda .. | nil | bool _ | number _ | string _ | symbol _ | keyword _ | native .. | special _ => rfl

theorem codes_repositions (f : Option Position → Option Position) :
    ∀ vs : List Value, codes (repositions f vs) = codes vs
  | [] => rfl
  | v :: vs => congrArg₂ List.cons (code_reposition f v) (codes_repositions f vs)

end

theorem bare_reposition (f : Option Position → Option Position) (v : Value) :
    (v.reposition f).bare = v.bare :=
  reposition_reposition _ f v

theorem bare_list (items : List Value) (quoted : Bool) (opened : Option Position) :
    (list items quoted opened).bare = list (items.map bare) quoted none :=
  reposition_list _ items quoted opened

theorem bare_lambda (h : Header) (body : Value) (captured : Option ScopeId) :
    (lambda h body captured).bare = lambda h body.bare captured := by
  rw [bare, reposition, ← bare]

theorem code_bare (v : Value) : v.bare.code = v.code := code_reposition _ v

theorem ty_bare (v : Value) : v.bare.ty = v.ty := by
  cases v <;> rfl

theorem Similar.code {v w : Value} (h : Similar v w) : v.code = w.code := by
  rw [← code_bare v, h, code_bare]

theorem Similar.ty {v w : Value} (h : Similar v w) : v.ty = w.ty := by
  rw [← ty_bare v, h, ty_bare]

theorem forall₂_similar_iff {vs ws : List Value} :
    List.Forall₂ Similar vs ws ↔ vs.map bare = ws.map bare := by
  rw [← List.forall₂_eq_eq_eq, List.forall₂_map_left_iff, List.forall₂_map_right_iff]
  rfl

/-- Two similar values side by side: the same constructor, with similar parts. -/
inductive Paired : Value → Value → Prop
  | nil : Paired .nil .nil
  | bool (b : Bool) : Paired (.bool b) (.bool b)
  | number (x : Float) : Paired (.number x) (.number x)
  | string (s : String) : Paired (.string s) (.string s)
  | symbol (name : String) : Paired (.symbol name) (.symbol name)
  | keyword (name : String) : Paired (.keyword name) (.keyword name)
  | list {items items' : List Value} (quoted : Bool) (opened opened' : Option Position) :
    List.Forall₂ Similar items items' → Paired (.list items quoted opened) (.list items' quoted opened')
  | native (h : Header) (n : Native) : Paired (.native h n) (.native h n)
  | lambda (h : Header) {body body' : Value} (captured : Option ScopeId) :
    Similar body body' → Paired (.lambda h body captured) (.lambda h body' captured)
  | special (form : SpecialForm) : Paired (.special form) (.special form)

theorem Similar.paired {v w : Value} (h : Similar v w) : Paired v w := by
  cases v with
  | list items quoted opened =>
    cases w with
    | list items' quoted' opened' =>
      rw [Similar, bare_list, bare_list, Value.list.injEq] at h
      obtain ⟨hitems, rfl, -⟩ := h
      exact .list quoted opened opened' (forall₂_similar_iff.2 hitems)
    | _ => simp [Similar, bare, reposition] at h
  | lambda header body captured =>
    cases w with
    | lambda header' body' captured' =>
      rw [Similar, bare_lambda, bare_lambda, Value.lambda.injEq] at h
      obtain ⟨rfl, hbody, rfl⟩ := h
      exact .lambda header captured hbody
    | _ => simp [Similar, bare, reposition] at h
  | _ =>
    cases w with
    | list => simp [Similar, bare, reposition] at h
    | lambda => simp [Similar, bare, reposition] at h
    | _ => cases h <;> constructor

end Value

namespace Cause

def bare : Cause → Cause
  | notCallable v => notCallable v.bare
  | unconvertible v target => unconvertible v.bare target
  | wrongType v target => wrongType v.bare target
  | wrongArgument wanted v => wrongArgument wanted v.bare
  | conditionNotBool form v => conditionNotBool form v.bare
  | malformedBranch v => malformedBranch v.bare
  | bindingNotList v => bindingNotList v.bare
  | bindingTarget v => bindingTarget v.bare
  | definitionTarget v => definitionTarget v.bare
  | functionName v => functionName v.bare
  | paramsNotList v => paramsNotList v.bare
  | paramNotSymbol v => paramNotSymbol v.bare
  | undocumented v => undocumented v.bare
  | c => c

theorem kind_bare (c : Cause) : c.bare.kind = c.kind := by
  cases c <;> rfl

theorem message_bare (c : Cause) : c.bare.message = c.message := by
  unfold bare message
  cases c with
  | unconvertible v | wrongType v => dsimp only; rw [v.code_bare, v.ty_bare]
  | notCallable v | wrongArgument _ v | conditionNotBool _ v | malformedBranch v | bindingNotList v
  | bindingTarget v | definitionTarget v | functionName v | paramsNotList v | paramNotSymbol v
  | undocumented v => dsimp only; rw [v.code_bare]
  | _ => rfl

end Cause

/-! Bindings, one value at a time. -/

namespace Bindings

variable {α β : Type} (f : α → β)

def mapEntry (e : String × α) : String × β := (e.1, f e.2)

theorem increasing_map {es : List (String × α)} (h : Increasing es) :
    Increasing (es.map (mapEntry f)) :=
  List.pairwise_map.2 h

def map (b : Bindings α) : Bindings β := ⟨b.entries.map (mapEntry f), increasing_map f b.increasing⟩

theorem ext {b c : Bindings α} (h : b.entries = c.entries) : b = c := by
  cases b
  cases c
  cases h
  rfl

theorem map_place (name : String) (a : α) (es : List (String × α)) :
    (place name a es).map (mapEntry f) = place name (f a) (es.map (mapEntry f)) := by
  induction es with
  | nil => rfl
  | cons e es ih =>
    rw [List.map_cons, place, place, mapEntry]
    split_ifs
    · rfl
    · rfl
    · rw [List.map_cons, ih, mapEntry]

theorem map_merge (ds es : List (String × α)) :
    (merge ds es).map (mapEntry f) = merge (ds.map (mapEntry f)) (es.map (mapEntry f)) := by
  fun_induction merge ds es with
  | case1 => rw [List.map_nil, merge]
  | case2 => rw [List.map_nil, List.map_cons, merge]
  | case3 d ds e es hlt ih =>
    rw [List.map_cons, ih, List.map_cons, List.map_cons, merge]
    exact (if_pos hlt).symm
  | case4 d ds e es hge heq ih =>
    rw [List.map_cons, ih, List.map_cons, List.map_cons, merge]
    exact ((if_neg hge).trans (if_pos heq)).symm
  | case5 d ds e es hge hne ih =>
    rw [List.map_cons, ih, List.map_cons, List.map_cons, merge]
    exact ((if_neg hge).trans (if_neg hne)).symm

theorem lookup_map (es : List (String × α)) (name : String) :
    (es.map (mapEntry f)).lookup name = (es.lookup name).map f := by
  induction es with
  | nil => rfl
  | cons e es ih =>
    rw [List.map_cons, lookup_cons, lookup_cons, mapEntry]
    split_ifs
    · rfl
    · exact ih

theorem map_insert (b : Bindings α) (name : String) (a : α) :
    (b.insert name a).map f = (b.map f).insert name (f a) :=
  ext (map_place f name a b.entries)

theorem map_override (b c : Bindings α) : (b.override c).map f = (b.map f).override (c.map f) :=
  ext (map_merge f b.entries c.entries)

theorem map_erase (b : Bindings α) (name : String) : (b.erase name).map f = (b.map f).erase name := by
  apply ext
  change (b.entries.filter _).map (mapEntry f) = (b.entries.map (mapEntry f)).filter _
  rw [List.filter_map]
  rfl

theorem get?_map (b : Bindings α) (name : String) : (b.map f).get? name = (b.get? name).map f :=
  lookup_map f b.entries name

theorem map_foldl_insert (pairs : List (String × α)) (b : Bindings α) :
    (pairs.foldl (fun b e => b.insert e.1 e.2) b).map f =
      (pairs.map (mapEntry f)).foldl (fun b e => b.insert e.1 e.2) (b.map f) := by
  induction pairs generalizing b with
  | nil => rfl
  | cons e pairs ih =>
    rw [List.foldl_cons, ih, map_insert]
    rfl

theorem map_ofList (pairs : List (String × α)) :
    (ofList pairs).map f = ofList (pairs.map (mapEntry f)) :=
  map_foldl_insert f pairs ∅

end Bindings

/-! Scopes and machines. -/

def Scope.bare (scope : Scope) : Scope := { scope with bindings := scope.bindings.map Value.bare }

namespace Store

variable (s : Store)

def bare : Store := ⟨s.scopes.map Scope.bare⟩

theorem bare_fresh : s.bare.fresh = s.fresh := by simp [bare, fresh]

theorem bare_get (id : ScopeId) : s.bare.get id = (s.get id).bare := by
  have hempty : Scope.bare {} = {} := rfl
  simp only [bare, get, Array.getElem?_map]
  cases s.scopes[id.index]? with
  | none => exact hempty.symm
  | some scope => rfl

theorem bare_chain (id : ScopeId) : s.bare.chain id = s.chain id := by
  rw [chain, chain, bare_get]
  rfl

theorem bare_parent? (id : ScopeId) : s.bare.parent? id = s.parent? id := by
  rw [parent?, parent?, bare_get]
  rfl

theorem bare_add (scope : Scope) : (s.add scope).bare = s.bare.add scope.bare := by
  rw [add, add, bare, bare, Array.map_push]

theorem bare_define (id : ScopeId) (name : String) (v : Value) :
    (s.define id name v).bare = s.bare.define id name v.bare := by
  have hscope (scope : Scope) : Scope.bare { scope with bindings := scope.bindings.insert name v } =
      { scope.bare with bindings := scope.bare.bindings.insert name v.bare } := by
    rw [Scope.bare, Bindings.map_insert]
    rfl
  unfold define bare
  congr 1
  apply Array.ext_getElem?
  intro i
  simp only [Array.getElem?_map, Array.getElem?_modify]
  split_ifs
  · cases s.scopes[i]? with
    | none => rfl
    | some scope => exact congrArg some (hscope scope)
  · rfl

theorem bare_lookup (id : ScopeId) (name : String) :
    s.bare.lookup id name = (s.lookup id name).map Value.bare := by
  rw [lookup, lookup, bare_chain, List.map_findSome?]
  congr 1
  funext i
  rw [bare_get]
  exact Bindings.get?_map Value.bare _ name

theorem bare_visible (id : ScopeId) : s.bare.visible id = (s.visible id).map Value.bare := by
  rw [visible, visible, bare_chain]
  induction s.chain id with
  | nil => rfl
  | cons i ids ih =>
    rw [List.foldr_cons, List.foldr_cons, ih, bare_get, Bindings.map_override]
    rfl

end Store

namespace Machine

variable (m : Machine)

/-- The machine with no position in any value that it holds. -/
def bare : Machine := { m with store := m.store.bare, builtins := m.builtins.map Value.bare }

theorem bare_define (name : String) (v : Value) :
    (m.define name v).bare = m.bare.define name v.bare := by
  unfold define bare
  simp only [Store.bare_define]

theorem bare_enter (bindings : Bindings Value) :
    (m.enter bindings).bare = m.bare.enter (bindings.map Value.bare) := by
  unfold enter bare
  simp only [Store.addIn, Store.bare_add, Store.bare_chain, Store.bare_fresh]
  rfl

theorem bare_leave? : m.bare.leave? = m.leave?.map bare := by
  have hparent : m.bare.store.parent? m.bare.current = m.store.parent? m.current :=
    m.store.bare_parent? m.current
  unfold leave?
  rw [hparent]
  cases m.store.parent? m.current <;> rfl

theorem bare_captured (name : String) : m.bare.captured name = (m.captured name).map Value.bare := by
  unfold captured
  rw [Bindings.map_erase, Bindings.map_override, ← Store.bare_visible, ← Store.bare_visible]
  rfl

theorem bare_defineFunction (name : String) (params : List String) (body : Value) :
    m.bare.defineFunction name params body.bare =
      ((m.defineFunction name params body).1.bare, (m.defineFunction name params body).2.bare) := by
  have hfresh : m.bare.store.fresh = m.store.fresh := m.store.bare_fresh
  unfold defineFunction
  simp only [Value.bare_lambda, hfresh, bare_captured]
  unfold bare
  simp only [Store.addRoot, Store.bare_define, Store.bare_add, Value.bare_lambda]
  rfl

theorem bare_resolve (name : String) : m.bare.resolve name = (m.resolve name).map Value.bare := by
  have hscopes : (m.bare.store.lookup m.bare.current name <|> m.bare.store.lookup m.bare.global name) =
      (m.store.lookup m.current name <|> m.store.lookup m.global name).map Value.bare := by
    change (m.store.bare.lookup m.current name <|> m.store.bare.lookup m.global name) = _
    rw [Store.bare_lookup, Store.bare_lookup]
    cases m.store.lookup m.current name <;> rfl
  unfold resolve
  rw [hscopes]
  cases (m.store.lookup m.current name <|> m.store.lookup m.global name) with
  | some v => rfl
  | none =>
    dsimp only [Option.map_none]
    cases SpecialForm.ofName? name with
    | some form => rfl
    | none =>
      have hbuiltin : m.bare.builtins.get? name = (m.builtins.get? name).map Value.bare :=
        m.builtins.get?_map Value.bare name
      dsimp only
      rw [hbuiltin]
      cases m.builtins.get? name <;> rfl

end Machine
end MiniLisp
