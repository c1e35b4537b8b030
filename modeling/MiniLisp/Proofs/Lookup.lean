import MiniLisp.Proofs.Growth

/-! Looking names up. All that is visible from a scope is what can be looked up from it; what a function
captures is what the name means where it is defined, its own name apart; and a name means what the
current path binds it to, or else what it means everywhere. -/

namespace MiniLisp

namespace Bindings

variable {α : Type}

theorem get?_foldl_insert (pairs : List (String × α)) (b : Bindings α) (n : String) :
    (pairs.foldl (fun b e => b.insert e.1 e.2) b).get? n =
      (pairs.reverse.lookup n).or (b.get? n) := by
  induction pairs generalizing b with
  | nil => rfl
  | cons e pairs ih =>
    rw [List.foldl_cons, ih, get?_insert, List.reverse_cons, List.lookup_append, lookup_cons,
      Option.or_assoc]
    congr 1
    split <;> simp

/-- Of several pairs for a name the last counts. -/
theorem get?_ofList (pairs : List (String × α)) (n : String) :
    (ofList pairs).get? n = pairs.reverse.lookup n := by
  rw [ofList, get?_foldl_insert, get?_empty, Option.or_none]

theorem get?_ofList_of_notMem {pairs : List (String × α)} {n : String}
    (h : n ∉ pairs.map (·.1)) : (ofList pairs).get? n = none := by
  rw [get?_ofList, List.lookup_eq_none_iff]
  rintro e he
  simpa using fun heq : n = e.1 => h (heq ▸ List.mem_map_of_mem (List.mem_reverse.1 he))

theorem get?_ofList_of_mem {pairs : List (String × α)} (hnd : (pairs.map (·.1)).Nodup) {n : String}
    {a : α} (h : (n, a) ∈ pairs) : (ofList pairs).get? n = some a := by
  obtain ⟨before, after, rfl⟩ := List.append_of_mem h
  have hafter : n ∉ after.map (·.1) := by
    simp only [List.map_append, List.map_cons, List.nodup_append, List.nodup_cons] at hnd
    exact hnd.2.1.1
  have hnone : after.reverse.lookup n = none := get?_ofList after n ▸ get?_ofList_of_notMem hafter
  simp [get?_ofList, List.lookup_append, hnone]

theorem map_fst_zip_eq_take (names : List String) (args : List α) :
    (names.zip args).map (·.1) = names.take args.length := by
  induction names generalizing args with
  | nil => simp
  | cons n names ih =>
    cases args with
    | nil => rfl
    | cons a args => simp [← ih args]

theorem zip_take (names : List String) (args : List α) :
    names.zip (args.take names.length) = names.zip args := by
  induction names generalizing args with
  | nil => rfl
  | cons n names ih =>
    cases args with
    | nil => rfl
    | cons a args => simp [ih args]

theorem get?_ofList_zip {names : List String} (hnd : names.Nodup) {args : List α} {i : Nat}
    {n : String} {a : α} (hn : names[i]? = some n) (ha : args[i]? = some a) :
    (ofList (names.zip args)).get? n = some a := by
  apply get?_ofList_of_mem
  · rw [map_fst_zip_eq_take]
    exact (List.take_sublist _ _).nodup hnd
  · exact List.mem_of_getElem? (List.getElem?_zip_eq_some.2 ⟨hn, ha⟩)

theorem get?_ofList_zip_eq_none {names : List String} {args : List α} {n : String}
    (h : ∀ i : Nat, names[i]? = some n → args.length ≤ i) :
    (ofList (names.zip args)).get? n = none := by
  apply get?_ofList_of_notMem
  rw [map_fst_zip_eq_take, List.mem_iff_getElem?]
  rintro ⟨i, hi⟩
  rw [List.getElem?_take] at hi
  split at hi
  · rename_i hlt
    have := h i hi
    omega
  · simp at hi

end Bindings

namespace Store

theorem get?_foldr_override (s : Store) (ids : List ScopeId) (n : String) :
    (ids.foldr (fun i (seen : Bindings Value) => seen.override (s.get i).bindings) ∅).get? n =
      ids.findSome? fun i => (s.get i).bindings.get? n := by
  induction ids with
  | nil => rfl
  | cons id ids ih =>
    rw [List.foldr_cons, Bindings.get?_override, ih, List.findSome?_cons]
    cases (s.get id).bindings.get? n <;> rfl

theorem get?_visible (s : Store) (id : ScopeId) (n : String) :
    (s.visible id).get? n = s.lookup id n :=
  get?_foldr_override s (s.chain id) n

theorem lookup_of_outer {s : Store} {id : ScopeId} {ids : List ScopeId} (h : (s.get id).outer = ids)
    (n : String) :
    s.lookup id n = ((s.get id).bindings.get? n).or
      (ids.findSome? fun i => (s.get i).bindings.get? n) := by
  unfold lookup chain
  rw [h, List.findSome?_cons]
  cases (s.get id).bindings.get? n <;> rfl

end Store

namespace Machine

/-- What the scopes around bind a name to: the current one and those it lies in, then the global
one. -/
def bound? (m : Machine) (name : String) : Option Value :=
  (m.store.lookup m.current name).or (m.store.lookup m.global name)

/-- What a name means where nothing but the global scope is around: its binding there, the special form
of that name, the builtin of that name. -/
def resolveGlobal (m : Machine) (name : String) : Except Cause Value :=
  match m.store.lookup m.global name with
  | some v => .ok v
  | none =>
    match SpecialForm.ofName? name with
    | some f => .ok (.special f)
    | none =>
      match m.builtins.get? name with
      | some v => .ok v
      | none => .error (.unbound name)

theorem resolve_eq (m : Machine) (name : String) :
    m.resolve name =
      match m.store.lookup m.current name with
      | some v => .ok v
      | none => m.resolveGlobal name := by
  unfold resolve resolveGlobal
  cases m.store.lookup m.current name <;> rfl

theorem resolveGlobal_congr {m m' : Machine} {name : String}
    (hl : m'.store.lookup m'.global name = m.store.lookup m.global name)
    (hb : m'.builtins = m.builtins) : m'.resolveGlobal name = m.resolveGlobal name := by
  unfold resolveGlobal
  rw [hl, hb]

theorem get?_captured (m : Machine) (name n : String) :
    (m.captured name).get? n = if n = name then none else m.bound? n := by
  unfold captured bound?
  rw [Bindings.get?_erase, Bindings.get?_override, Store.get?_visible, Store.get?_visible]

end Machine
end MiniLisp
