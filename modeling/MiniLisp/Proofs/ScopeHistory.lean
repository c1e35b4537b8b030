import Mathlib.Tactic.SplitIfs
import MiniLisp.Proofs.Lookup

/-! Scopes by their history. What a scope binds a name to is the latest definition of the name in it, or
what it was made with; a name looked up from a scope is bound by the nearest scope on the path out that
binds it. Both are said here of the row of edits that made the scopes (`History.own`, `History.path`),
and the store that the edits lead to answers every lookup as they say (`lookup_store`). -/

namespace MiniLisp

/-- One thing that is done to the scopes of a store. -/
inductive Edit where
  /-- Makes a root scope. -/
  | root
  /-- Makes a scope in another, with bindings to start with. -/
  | child (parent : ScopeId) (pairs : List (String × Value))
  | define (id : ScopeId) (name : String) (v : Value)
  /-- Makes a root scope with all that can be looked up from a scope at this moment. -/
  | snapshot (id : ScopeId)

namespace Edit

def perform (s : Store) : Edit → Store
  | root => s.addRoot ∅
  | child parent pairs => s.addIn parent (.ofList pairs)
  | define id name v => s.define id name v
  | snapshot id => s.addFlat id

/-- The scope that the edit is made to or from. -/
def subject? : Edit → Option ScopeId
  | root => none
  | child id _ | define id _ _ | snapshot id => some id

def makes : Edit → Bool
  | define .. => false
  | _ => true

end Edit

/-- Edits, the latest first. -/
abbrev History := List Edit

namespace History

/-- The store that the edits lead to. -/
def store : History → Store
  | [] => {}
  | e :: h => e.perform (store h)

/-- The number of the next scope: there are as many scopes as edits that make one. -/
def fresh (h : History) : ScopeId := ⟨h.countP Edit.makes⟩

/-- Every edit is of a scope made before it. -/
def Sound : History → Prop
  | [] => True
  | e :: h => (∀ id ∈ e.subject?, id.index < (fresh h).index) ∧ Sound h

instance decidableSound : (h : History) → Decidable (Sound h)
  | [] => .isTrue trivial
  | _ :: h => @instDecidableAnd _ _ _ (decidableSound h)

/-- The scope itself, the one it was made in, the one that was made in, and so on. -/
def path : History → ScopeId → List ScopeId
  | [], i => [i]
  | .define .. :: h, i => path h i
  | .child parent _ :: h, i => if i = fresh h then i :: path h parent else path h i
  | .root :: h, i | .snapshot _ :: h, i => if i = fresh h then [i] else path h i

/-- What a scope itself binds a name to: the latest definition, or else the last of the pairs that the
scope was made with, or what was seen from the scope that it is a snapshot of. -/
def own : History → ScopeId → String → Option Value
  | [], _, _ => none
  | .root :: h, i, x => if i = fresh h then none else own h i x
  | .child _ pairs :: h, i, x => if i = fresh h then pairs.reverse.lookup x else own h i x
  | .define id name v :: h, i, x => if i = id ∧ x = name then some v else own h i x
  | .snapshot id :: h, i, x =>
    if i = fresh h then (path h id).findSome? fun j => own h j x else own h i x

/-- What the nearest scope on the path binds the name to. -/
def seen (h : History) (i : ScopeId) (x : String) : Option Value :=
  (h.path i).findSome? fun j => h.own j x

/-- Among the scopes on the path from `i`, `j` is the nearest that binds the name. -/
def Nearest (h : History) (i : ScopeId) (x : String) (j : ScopeId) : Prop :=
  ∃ near far, h.path i = near ++ j :: far ∧ (∀ k ∈ near, h.own k x = none) ∧ (h.own j x).isSome

theorem fresh_store (h : History) : (store h).fresh = fresh h := by
  induction h with
  | nil => rfl
  | cons e h ih =>
    have hsize : (store h).scopes.size = h.countP Edit.makes := congrArg ScopeId.index ih
    cases e with
    | define id name v =>
      simpa [store, Edit.perform, Store.fresh, Store.define, fresh, Edit.makes] using hsize
    | _ =>
      rw [store, fresh, List.countP_cons_of_pos rfl, ← hsize]
      exact congrArg ScopeId.mk (Array.size_push _)

theorem chain_store (h : History) (i : ScopeId) : (store h).chain i = path h i := by
  induction h generalizing i with
  | nil => rfl
  | cons e h ih =>
    have hadd (scope : Scope) : ((store h).add scope).chain i =
        if i = fresh h then i :: scope.outer else path h i := by
      rw [Store.chain, Store.get_add, fresh_store]
      split_ifs
      · rfl
      · exact ih i
    cases e with
    | root => exact hadd _
    | child parent pairs => rw [path, ← ih parent]; exact hadd _
    | define id name v =>
      rw [path, ← ih i, Store.chain, Store.chain]
      exact congrArg (i :: ·) (Store.outer_define ..)
    | snapshot id => exact hadd _

theorem has_store {h : History} {i : ScopeId} : (store h).Has i ↔ i.index < (fresh h).index := by
  rw [← fresh_store]
  rfl

theorem get?_store {h : History} (hs : Sound h) (i : ScopeId) (x : String) :
    ((store h).get i).bindings.get? x = own h i x := by
  induction h generalizing i with
  | nil => rfl
  | cons e h ih =>
    obtain ⟨hsubject, hs⟩ := hs
    have hadd (scope : Scope) : (((store h).add scope).get i).bindings.get? x =
        if i = fresh h then scope.bindings.get? x else own h i x := by
      rw [Store.get_add, fresh_store]
      split_ifs
      · rfl
      · exact ih hs i
    cases e with
    | root => exact hadd _
    | child parent pairs => rw [own, ← Bindings.get?_ofList]; exact hadd _
    | define id name v =>
      have hhas : (store h).Has id := has_store.2 (hsubject id rfl)
      change (((store h).define id name v).get i).bindings.get? x = _
      rw [Store.get_define, own]
      by_cases hi : i = id
      · rw [if_pos ⟨hi, hhas⟩, Bindings.get?_insert, ih hs]
        simp [hi]
      · rw [if_neg fun hc => hi hc.1, if_neg fun hc => hi hc.1, ih hs]
    | snapshot id =>
      have hseen : ((store h).visible id).get? x = (path h id).findSome? fun j => own h j x := by
        rw [Store.get?_visible, Store.lookup, chain_store]
        exact congrArg (List.findSome? · _) (funext fun j => ih hs j)
      rw [own, ← hseen]
      exact hadd _

/-- The store answers as the history says. -/
theorem lookup_store {h : History} (hs : Sound h) (i : ScopeId) (x : String) :
    (store h).lookup i x = seen h i x := by
  rw [Store.lookup, chain_store]
  exact congrArg (List.findSome? · _) (funext fun j => get?_store hs j x)

theorem seen_eq_some_iff {h : History} {i : ScopeId} {x : String} {v : Value} :
    seen h i x = some v ↔ ∃ j, Nearest h i x j ∧ own h j x = some v := by
  rw [seen, List.findSome?_eq_some_iff]
  constructor
  · rintro ⟨near, j, far, hpath, hv, hnear⟩
    exact ⟨j, ⟨near, far, hpath, hnear, by simp [hv]⟩, hv⟩
  · rintro ⟨j, ⟨near, far, hpath, hnear, -⟩, hv⟩
    exact ⟨near, j, far, hpath, hv, hnear⟩

/-! What goes on. -/

theorem Sound.of_append {more h : History} (hs : Sound (more ++ h)) : Sound h := by
  induction more with
  | nil => exact hs
  | cons e more ih => exact ih hs.2

theorem fresh_le_append (more h : History) : (fresh h).index ≤ (fresh (more ++ h)).index := by
  simp [fresh, List.countP_append]

section

variable {h : History} {i : ScopeId} (hi : i.index < (fresh h).index)
include hi

theorem ne_fresh_append (more : History) : i ≠ fresh (more ++ h) := by
  rintro rfl
  exact absurd (fresh_le_append more h) (Nat.not_le.2 hi)

theorem path_append (more : History) : path (more ++ h) i = path h i := by
  induction more with
  | nil => rfl
  | cons e more ih =>
    have hne := ne_fresh_append hi more
    cases e <;> simp [path, hne, ih]

theorem own_append {x : String} {more : History} (hx : ∀ v, .define i x v ∉ more) :
    own (more ++ h) i x = own h i x := by
  induction more with
  | nil => rfl
  | cons e more ih =>
    have hne := ne_fresh_append hi more
    have hrest := ih fun v hv => hx v (List.mem_cons_of_mem e hv)
    cases e with
    | define id name v =>
      have hother : ¬ (i = id ∧ x = name) := by
        rintro ⟨rfl, rfl⟩
        exact hx v List.mem_cons_self
      rw [List.cons_append, own, if_neg hother, hrest]
    | _ => simp [own, hne, hrest]

end

theorem lt_fresh_cons {e : Edit} {h : History} {i : ScopeId} (hi : i.index < (fresh (e :: h)).index) :
    i.index < (fresh h).index ∨ e.makes ∧ i = fresh h := by
  obtain ⟨i⟩ := i
  simp only [fresh, List.countP_cons, ScopeId.mk.injEq] at hi ⊢
  split at hi <;> grind

theorem lt_of_mem_path {h : History} (hs : Sound h) {i k : ScopeId} (hi : i.index < (fresh h).index)
    (hk : k ∈ path h i) : k.index < (fresh h).index := by
  induction h generalizing i with
  | nil => simp [fresh] at hi
  | cons e h ih =>
    have hle : (fresh h).index ≤ (fresh (e :: h)).index := fresh_le_append [e] h
    obtain hold | ⟨hmakes, rfl⟩ := lt_fresh_cons hi
    · rw [← List.singleton_append, path_append hold] at hk
      exact Nat.lt_of_lt_of_le (ih hs.2 hold hk) hle
    · cases e with
      | define => simp [Edit.makes] at hmakes
      | child parent pairs =>
        rw [path, if_pos rfl, List.mem_cons] at hk
        obtain rfl | hk := hk
        · exact hi
        · exact Nat.lt_of_lt_of_le (ih hs.2 (hs.1 parent rfl) hk) hle
      | root | snapshot =>
        rw [path, if_pos rfl, List.mem_singleton] at hk
        exact hk ▸ hi

theorem findSome?_eq_of_first {α β : Type} {f g : α → Option β} {l : List α}
    (hfg : ∀ near a far, l = near ++ a :: far → (∀ b ∈ near, f b = none) → f a = g a) :
    l.findSome? f = l.findSome? g := by
  induction l with
  | nil => rfl
  | cons a l ih =>
    rw [List.findSome?_cons, List.findSome?_cons, ← hfg [] a l rfl (by simp)]
    cases ha : f a with
    | some v => rfl
    | none =>
      apply ih
      rintro near b far rfl hnear
      exact hfg (a :: near) b far rfl (List.forall_mem_cons.2 ⟨ha, hnear⟩)

/-- A lookup stays as it is while the name is not defined in a scope on the path. -/
theorem seen_append {h more : History} (hs : Sound h) {i : ScopeId} (hi : i.index < (fresh h).index)
    {x : String} (hx : ∀ k ∈ path h i, ∀ v, .define k x v ∉ more) :
    seen (more ++ h) i x = seen h i x := by
  rw [seen, seen, path_append hi]
  apply findSome?_eq_of_first
  intro near k far hpath _
  have hk : k ∈ path h i := by simp [hpath]
  exact own_append (lt_of_mem_path hs hi hk) (hx k hk)

/-! One definition more or less. -/

/-- In the edits after `h`, the scope was made as a snapshot of one that lies in `id`, or in such a copy
again. -/
inductive Copies (h : History) (id : ScopeId) : History → ScopeId → Prop
  | made {more : History} {j : ScopeId} (hj : id ∈ path (more ++ h) j) :
    Copies h id (.snapshot j :: more) (fresh (more ++ h))
  | again {more : History} {j k : ScopeId} (hj : k ∈ path (more ++ h) j) (hk : Copies h id more k) :
    Copies h id (.snapshot j :: more) (fresh (more ++ h))
  | later {more : History} {k : ScopeId} (e : Edit) (hk : Copies h id more k) :
    Copies h id (e :: more) k

section

variable (more h : History) (id : ScopeId) (name : String) (v : Value)

theorem fresh_defined : fresh (more ++ .define id name v :: h) = fresh (more ++ h) := by
  simp [fresh, List.countP_append, Edit.makes]

theorem path_defined (i : ScopeId) : path (more ++ .define id name v :: h) i = path (more ++ h) i := by
  induction more generalizing i with
  | nil => rfl
  | cons e more ih => cases e <;> simp [path, fresh_defined, ih]

variable {more h id name v}

theorem sound_of_defined (hs : Sound (more ++ .define id name v :: h)) : Sound (more ++ h) := by
  induction more with
  | nil => exact hs.2
  | cons e more ih => exact ⟨fresh_defined more h id name v ▸ hs.1, ih hs.2⟩

/-- A definition changes one binding of one scope, copies that are made later apart. -/
theorem own_defined {k : ScopeId} {x : String} (hk : ¬ Copies h id more k)
    (hne : ¬ (k = id ∧ x = name)) :
    own (more ++ .define id name v :: h) k x = own (more ++ h) k x := by
  induction more generalizing k with
  | nil => exact if_neg hne
  | cons e more ih =>
    have hrest := ih (fun hk' => hk (.later e hk')) hne
    cases e with
    | snapshot j =>
      rw [List.cons_append, List.cons_append, own, own, fresh_defined, path_defined, hrest]
      split_ifs with hfresh
      · -- what is copied lies in no scope that the definition has changed
        apply findSome?_eq_of_first
        intro near i far hpath _
        have hi : i ∈ path (more ++ h) j := by simp [hpath]
        exact ih (fun hi' => hk (hfresh ▸ .again hi hi'))
          (fun heq => hk (hfresh ▸ .made (heq.1 ▸ hi)))
      · rfl
    | _ => simp only [List.cons_append, own, fresh_defined, hrest]

theorem seen_defined (hown : (own (more ++ .define id name v :: h) id name).isSome) {i : ScopeId}
    {x : String} (hcopies : ∀ k ∈ path (more ++ h) i, ¬ Copies h id more k)
    (hother : ¬ (x = name ∧ Nearest (more ++ .define id name v :: h) i name id)) :
    seen (more ++ .define id name v :: h) i x = seen (more ++ h) i x := by
  rw [seen, seen, path_defined]
  apply findSome?_eq_of_first
  intro near k far hpath hnear
  apply own_defined (hcopies k (by simp [hpath]))
  rintro ⟨rfl, rfl⟩
  exact hother ⟨rfl, near, far, by rw [path_defined, hpath], hnear, hown⟩

theorem seen_define_of_notMem {i : ScopeId} {x : String} (hid : id ∉ path h i) :
    seen (.define id name v :: h) i x = seen h i x := by
  apply findSome?_eq_of_first
  intro near k far hpath _
  have hk : k ∈ path h i := by simp [show path h i = _ from hpath]
  have hne : ¬ (k = id ∧ x = name) := fun heq => hid (heq.1 ▸ hk)
  exact if_neg hne

theorem own_latest (hs : Sound (more ++ .define id name v :: h))
    (hlatest : ∀ w, .define id name w ∉ more) :
    own (more ++ .define id name v :: h) id name = some v := by
  have hmade : id.index < (fresh h).index := hs.of_append.1 id rfl
  have hfresh : fresh (.define id name v :: h) = fresh h := fresh_defined [] h id name v
  rw [own_append (hfresh ▸ hmade) hlatest, own, if_pos ⟨rfl, rfl⟩]

end

/-! Snapshots. -/

section

variable (h : History) (id : ScopeId)

theorem fresh_lt_snapshot : (fresh h).index < (fresh (.snapshot id :: h)).index := by
  simp [fresh, List.countP_cons, Edit.makes]

theorem path_snapshot (more : History) :
    path (more ++ .snapshot id :: h) (fresh h) = [fresh h] := by
  rw [path_append (fresh_lt_snapshot h id), path, if_pos rfl]

variable {h id}

theorem seen_snapshot (hs : Sound (.snapshot id :: h)) (x : String) :
    seen (.snapshot id :: h) (fresh h) x = seen (.snapshot id :: h) id x := by
  have hlater : seen ([.snapshot id] ++ h) id x = seen h id x :=
    seen_append hs.2 (hs.1 id rfl) (by simp)
  calc seen (.snapshot id :: h) (fresh h) x
    _ = own (.snapshot id :: h) (fresh h) x := by
      rw [seen, path, if_pos rfl, List.findSome?_singleton]
    _ = seen h id x := if_pos rfl
    _ = seen (.snapshot id :: h) id x := hlater.symm

theorem isRoot_snapshot (more : History) :
    (store (more ++ .snapshot id :: h)).isRoot (fresh h) = true := by
  have hchain := (chain_store (more ++ .snapshot id :: h) (fresh h)).trans (path_snapshot h id more)
  rw [Store.chain, List.cons_inj_right] at hchain
  rw [Store.isRoot, Store.parent?, hchain]
  rfl

end

/-- A name means what the nearest scope on the path binds it to. A definition is seen from its scope and
those with no nearer binding, and elsewhere through later copies alone. A snapshot is a root that agrees
with its original when it is made, and then goes its own way. -/
theorem scopes_follow_history {h : History} (hs : Sound h) :
    (∀ i x v, (store h).lookup i x = some v ↔ ∃ j, Nearest h i x j ∧ own h j x = some v) ∧
    (∀ more id name v earlier, h = more ++ .define id name v :: earlier →
      (∀ w, .define id name w ∉ more) →
      (store h).lookup id name = some v ∧
      (∀ i, Nearest h i name id → (store h).lookup i name = some v) ∧
      ∀ i x, (∀ k ∈ path h i, ¬ Copies earlier id more k) → ¬ (x = name ∧ Nearest h i name id) →
        (store h).lookup i x = (store (more ++ earlier)).lookup i x) ∧
    (∀ more id earlier, h = more ++ .snapshot id :: earlier →
      (store h).isRoot (fresh earlier) = true ∧
      (∀ x, (store (.snapshot id :: earlier)).lookup (fresh earlier) x =
        (store (.snapshot id :: earlier)).lookup id x) ∧
      (∀ x, (∀ w, .define (fresh earlier) x w ∉ more) →
        (store h).lookup (fresh earlier) x =
          (store (.snapshot id :: earlier)).lookup (fresh earlier) x) ∧
      ∀ name v i x, fresh earlier ∉ path h i →
        (store (.define (fresh earlier) name v :: h)).lookup i x = (store h).lookup i x) := by
  have hnearest (i : ScopeId) (x : String) (v : Value) :
      (store h).lookup i x = some v ↔ ∃ j, Nearest h i x j ∧ own h j x = some v := by
    rw [lookup_store hs, seen_eq_some_iff]
  refine ⟨hnearest, ?_, ?_⟩
  · rintro more id name v earlier rfl hlatest
    have hown := own_latest hs hlatest
    have hself : Nearest (more ++ .define id name v :: earlier) id name id :=
      ⟨[], _, (chain_store _ id).symm, by simp, by simp [hown]⟩
    refine ⟨(hnearest id name v).2 ⟨id, hself, hown⟩,
      fun i hi => (hnearest i name v).2 ⟨id, hi, hown⟩, fun i x hcopies hother => ?_⟩
    rw [path_defined] at hcopies
    rw [lookup_store hs, lookup_store (sound_of_defined hs),
      seen_defined (by simp [hown]) hcopies hother]
  · rintro more id earlier rfl
    have hbefore : Sound (.snapshot id :: earlier) := hs.of_append
    refine ⟨isRoot_snapshot more, fun x => ?_, fun x hkept => ?_, fun name v i x hout => ?_⟩
    · rw [lookup_store hbefore, lookup_store hbefore, seen_snapshot hbefore]
    · have hmade := fresh_lt_snapshot earlier id
      rw [lookup_store hs, lookup_store hbefore, seen_append hbefore hmade]
      rw [show path (.snapshot id :: earlier) (fresh earlier) = _ from path_snapshot earlier id []]
      simpa using hkept
    · have hmade := Nat.lt_of_lt_of_le (fresh_lt_snapshot earlier id) (fresh_le_append more _)
      have hafter : Sound (.define (fresh earlier) name v :: (more ++ .snapshot id :: earlier)) :=
        ⟨by simpa [Edit.subject?] using hmade, hs⟩
      rw [lookup_store hafter, lookup_store hs, seen_define_of_notMem hout]

/-- Scope 2 lies in 1 and that in 0, but binds the name itself: a definition in 0 is seen from 1 and not
from 2. Scope 3, a snapshot of 1, keeps the definition before. -/
theorem scopes_follow_history_shadowed :
    let x := "x"
    let made : History :=
      [.define ⟨0⟩ x (.keyword "first"), .child ⟨1⟩ [(x, .keyword "far"), (x, .keyword "near")],
        .child ⟨0⟩ [], .root]
    let h : History := .define ⟨0⟩ x (.keyword "later") :: .snapshot ⟨1⟩ :: made
    Sound h ∧
      (store h).lookup ⟨1⟩ x = some (.keyword "later") ∧
      (store h).lookup ⟨2⟩ x = some (.keyword "near") ∧
      (store h).lookup ⟨3⟩ x = some (.keyword "first") := by
  intro x made h
  have hsound : Sound h := by decide
  obtain ⟨hnearest, hdefined, hcopy⟩ := scopes_follow_history hsound
  obtain ⟨-, hseen, -⟩ := hdefined [] ⟨0⟩ x _ _ rfl (by simp)
  obtain ⟨-, -, hkept, -⟩ := hcopy [_] ⟨1⟩ made rfl
  obtain ⟨hbefore, -⟩ := scopes_follow_history hsound.2
  refine ⟨hsound, hseen ⟨1⟩ ⟨[⟨1⟩], [], rfl, List.forall_mem_singleton.2 rfl, rfl⟩, ?_, ?_⟩
  · exact (hnearest ⟨2⟩ x _).2 ⟨⟨2⟩, ⟨[], _, rfl, by simp, rfl⟩, rfl⟩
  · rw [← (hbefore ⟨3⟩ x _).2 ⟨⟨3⟩, ⟨[], [], rfl, by simp, rfl⟩, rfl⟩]
    exact hkept x fun w hw => absurd (List.mem_singleton.1 hw) (by simp [made, fresh, Edit.makes])

end History

end MiniLisp
