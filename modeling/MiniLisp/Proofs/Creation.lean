import MiniLisp.Proofs.Closure
import MiniLisp.Proofs.Frame

/-! The order in which functions are made. Beside a machine stands the row of all functions made so far
(`Moment`), and everything that the machine holds is put together from these. A function gets a number
higher than all before it, keeps what it captured in a root scope that is never written to, and so
refers only to functions made before it (`orderly_of_moment`). -/

namespace MiniLisp

namespace Value

/-- The function is the value itself or stands in one of its lists. -/
inductive Holds : Value → Value → Prop
  | native (h : Header) (n : Native) : Holds (.native h n) (.native h n)
  | lambda (h : Header) (body : Value) (captured : Option ScopeId) :
    Holds (.lambda h body captured) (.lambda h body captured)
  | item {v f : Value} {items : List Value} {quoted : Bool} {opened : Option Position} :
    v ∈ items → Holds v f → Holds (.list items quoted opened) f

/-- Every function in the value is one of these. -/
def Known (made : List Value) (v : Value) : Prop := ∀ f, v.Holds f → f ∈ made

def serial : Value → Nat
  | native h _ | lambda h _ _ => h.serial
  | _ => 0

theorem Known.mono {made made' : List Value} {v : Value} (h : v.Known made) (hmade : made <:+ made') :
    v.Known made' := fun f hf => hmade.subset (h f hf)

theorem known_native {made : List Value} {h : Header} {n : Native} :
    (native h n).Known made ↔ native h n ∈ made := by
  constructor
  · exact fun hknown => hknown _ (.native h n)
  · rintro hmem f ⟨⟩
    exact hmem

theorem known_lambda {made : List Value} {h : Header} {body : Value} {captured : Option ScopeId} :
    (lambda h body captured).Known made ↔ lambda h body captured ∈ made := by
  constructor
  · exact fun hknown => hknown _ (.lambda h body captured)
  · rintro hmem f ⟨⟩
    exact hmem

theorem known_list {made items : List Value} {quoted : Bool} {opened : Option Position} :
    (list items quoted opened).Known made ↔ ∀ v ∈ items, v.Known made := by
  constructor
  · exact fun hknown v hv f hf => hknown f (.item hv hf)
  · rintro hitems f (_ | _ | ⟨hv, hf⟩)
    exact hitems _ hv f hf

theorem known_special (made : List Value) (form : SpecialForm) : (special form).Known made := by
  rintro f ⟨⟩

theorem known_of_ty {made : List Value} {v : Value} (hlist : v.ty ≠ .list) (hfun : v.ty ≠ .function) :
    v.Known made := by
  rintro f (_ | _ | _)
  · exact absurd rfl hfun
  · exact absurd rfl hfun
  · exact absurd rfl hlist

end Value

open Value

/-- In this store, the first function holds the second in its body or in what it captured. -/
inductive Refers (s : Store) : Value → Value → Prop
  | body {h : Header} {body g : Value} {captured : Option ScopeId} :
    body.Holds g → Refers s (.lambda h body captured) g
  | captured {h : Header} {body v g : Value} {captured id : ScopeId} {x : String} :
    id ∈ s.chain captured → (s.get id).bindings.get? x = some v → v.Holds g →
      Refers s (.lambda h body (some captured)) g

/-- The operation makes no function: what it answers with holds functions of its arguments, or such as
`known` says. -/
def Honest (known : Value → Prop) (op : Operation) : Prop :=
  ∀ args w v f, (op args w).1 = .ok v → v.Holds f → (∃ a ∈ args, a.Holds f) ∨ known f

/-- The builtins of a new interpreter, the last one first. -/
def builtinFunctions : List Value := (Builtin.all.zipIdx.map fun (b, i) => b.toValue i).reverse

/-- `Moment config rolls m made`: at some moment of a session, be it in the middle of an evaluation, the
machine is `m`, and the functions made so far are these, the latest first. Everything else is put
together from functions that there are. -/
inductive Moment (config : ReaderConfig) (rolls : Nat → UInt64) : Machine → List Value → Prop
  | new : Moment config rolls (.new config rolls) builtinFunctions
  | define {m : Machine} {made : List Value} (name : String) {v : Value}
    (hm : Moment config rolls m made) (hv : v.Known made) : Moment config rolls (m.define name v) made
  | defineFunction {m : Machine} {made : List Value} (name : String) {names : List String} {body : Value}
    (hm : Moment config rolls m made) (hnames : names.Nodup) (hbody : body.Known made) :
    Moment config rolls (m.defineFunction name names body).2
      ((m.defineFunction name names body).1 :: made)
  | enter {m : Machine} {made : List Value} {bindings : Bindings Value}
    (hm : Moment config rolls m made) (hb : ∀ x v, bindings.get? x = some v → v.Known made) :
    Moment config rolls (m.enter bindings) made
  | move {m : Machine} {made : List Value} (id : ScopeId) (hm : Moment config rolls m made) :
    Moment config rolls { m with current := id } made
  | perform {m : Machine} {made : List Value} (w : World) (hm : Moment config rolls m made) :
    Moment config rolls { m with world := w } made
  | register {m : Machine} {made : List Value} {d : Definition} (hm : Moment config rolls m made)
    (hd : Honest (· ∈ made) d.run) :
    Moment config rolls (m.register d)
      (.native (d.header m.nextSerial) (.host m.hostOperations.size) :: made)
  /-- The host makes a function of a builtin. -/
  | make {m : Machine} {made : List Value} (b : Builtin) (hm : Moment config rolls m made) :
    Moment config rolls { m with nextSerial := m.nextSerial + 1 } (b.toValue m.nextSerial :: made)

/-- How a function of the program is made, and stays. -/
structure Sealed (m : Machine) (made : List Value) (h : Header) (body : Value) (captured : ScopeId) :
    Prop where
  has : m.store.Has captured
  ne_global : captured ≠ m.global
  outer : (m.store.get captured).outer = []
  unnamed : (m.store.get captured).bindings.get? h.name = none
  params : ∃ names : List String, names.Nodup ∧ h.params = names.map fun p => ⟨p, .any, false⟩
  earlier : ∀ g, Refers m.store (.lambda h body (some captured)) g → g ∈ made ∧ g.serial < h.serial

/-- The function has captured a scope, and is sealed with it. -/
def Closed (m : Machine) (made : List Value) (h : Header) (body : Value) (captured : Option ScopeId) :
    Prop :=
  ∃ scope, captured = some scope ∧ Sealed m made h body scope

/-- All that a machine holds is known, and functions are numbered in the order they were made. -/
structure Orderly (m : Machine) (made : List Value) : Prop where
  rooted : Rooted m
  bound : ∀ id x v, (m.store.get id).bindings.get? x = some v → v.Known made
  builtins : ∀ x v, m.builtins.get? x = some v → v.Known made
  operations : ∀ op ∈ m.hostOperations, Honest (· ∈ made) op
  ordered : made.Pairwise fun f g => g.serial < f.serial
  numbered : ∀ f ∈ made, f.serial < m.nextSerial
  closed : ∀ h body captured, .lambda h body captured ∈ made → Closed m made h body captured

theorem refers_congr {s s' : Store} {h : Header} {body g : Value} {captured : ScopeId}
    (hget : s'.get captured = s.get captured) (houter : (s.get captured).outer = [])
    (hg : Refers s' (.lambda h body (some captured)) g) :
    Refers s (.lambda h body (some captured)) g := by
  cases hg with
  | body hbody => exact .body hbody
  | @captured _ _ v _ _ id x hid hx hv =>
    obtain rfl : id = captured := by simpa [Store.chain, hget, houter] using hid
    exact .captured List.mem_cons_self (hget ▸ hx) hv

theorem Sealed.grows {m m' : Machine} {made made' : List Value} {h : Header} {body : Value}
    {captured : ScopeId} (hs : Sealed m made h body captured) (hg : Grows m m')
    (hmade : made <:+ made') : Sealed m' made' h body captured := by
  have hget := hg.get captured hs.has hs.ne_global
  exact ⟨hg.has _ hs.has, hg.global ▸ hs.ne_global, hget ▸ hs.outer, hget ▸ hs.unnamed, hs.params,
    fun g hgr => (hs.earlier g (refers_congr hget hs.outer hgr)).imp (hmade.mem ·) id⟩

theorem Closed.grows {m m' : Machine} {made made' : List Value} {h : Header} {body : Value}
    {captured : Option ScopeId} (hc : Closed m made h body captured) (hg : Grows m m')
    (hmade : made <:+ made') : Closed m' made' h body captured := by
  obtain ⟨scope, rfl, hs⟩ := hc
  exact ⟨scope, rfl, hs.grows hg hmade⟩

theorem Honest.mono {known known' : Value → Prop} {op : Operation} (h : Honest known op)
    (hsub : ∀ f, known f → known' f) : Honest known' op :=
  fun args w v f hv hf => (h args w v f hv hf).imp id (hsub f)

namespace Orderly

variable {m : Machine} {made : List Value} (ho : Orderly m made)
include ho

theorem lookup {id : ScopeId} {x : String} {v : Value} (h : m.store.lookup id x = some v) :
    v.Known made := by
  obtain ⟨i, -, hi⟩ := List.exists_of_findSome?_eq_some h
  exact ho.bound i x v hi

theorem captured {name x : String} {v : Value} (h : (m.captured name).get? x = some v) :
    v.Known made := by
  rw [Machine.get?_captured, Machine.bound?] at h
  split at h
  · cases h
  · obtain h | ⟨-, h⟩ := Option.or_eq_some_iff.1 h
    · exact ho.lookup h
    · exact ho.lookup h

end Orderly

theorem mem_of_lookup {pairs : List (String × Value)} {x : String} {v : Value}
    (h : pairs.lookup x = some v) : (x, v) ∈ pairs := by
  obtain ⟨l₁, l₂, rfl, -⟩ := List.lookup_eq_some_iff.1 h
  simp

theorem native_of_mem_builtinFunctions {f : Value} (h : f ∈ builtinFunctions) :
    ∃ header n, f = .native header n := by
  simp only [builtinFunctions, List.mem_reverse, List.mem_map] at h
  obtain ⟨⟨b, i⟩, -, rfl⟩ := h
  exact ⟨_, _, rfl⟩

theorem orderly_new (config : ReaderConfig) (rolls : Nat → UInt64) :
    Orderly (.new config rolls) builtinFunctions where
  rooted := rooted_new config rolls
  bound id x v h := by
    change ((Store.add {} _).get id).bindings.get? x = some v at h
    rw [Store.get_add] at h
    split at h
    · rw [Bindings.get?_ofList] at h
      obtain h | h : v = .bool false ∨ v = .bool true := by
        simpa using (List.mem_map_of_mem (mem_of_lookup h) : (x, v).2 ∈ List.map Prod.snd _)
      all_goals
        subst h
        exact known_of_ty (by decide) (by decide)
    · simp [Store.get] at h
  builtins x v h := by
    have hmem : (x, v) ∈ _ := mem_of_lookup (Bindings.get?_ofList _ x ▸ h)
    simp only [List.mem_reverse, List.mem_map, Prod.mk.injEq] at hmem
    obtain ⟨⟨b, i⟩, hb, -, rfl⟩ := hmem
    exact known_native.2 (List.mem_reverse.2 (List.mem_map_of_mem hb))
  operations op h := by simp [Machine.new] at h
  ordered := by decide
  numbered := show ∀ f ∈ builtinFunctions, f.serial < Builtin.all.length by decide
  closed h body captured hmem := by
    obtain ⟨header, n, heq⟩ := native_of_mem_builtinFunctions hmem
    cases heq

section

variable {m : Machine} {made : List Value} (ho : Orderly m made)
include ho

theorem orderly_congr {m' : Machine} (hstore : m'.store = m.store) (hglobal : m'.global = m.global)
    (hbuiltins : m'.builtins = m.builtins) (hoperations : m'.hostOperations = m.hostOperations)
    (hserial : m'.nextSerial = m.nextSerial) : Orderly m' made := by
  have hg : Grows m m' := grows_of_store hglobal hstore
  exact ⟨rooted_grows hg ho.rooted, hstore ▸ ho.bound, hbuiltins ▸ ho.builtins,
    hoperations ▸ ho.operations, ho.ordered, hserial ▸ ho.numbered,
    fun h body captured hf => (ho.closed h body captured hf).grows hg (List.suffix_refl made)⟩

theorem orderly_define (name : String) {v : Value} (hv : v.Known made) :
    Orderly (m.define name v) made := by
  have hg := grows_define m name v
  refine ⟨rooted_grows hg ho.rooted, ?_, ho.builtins, ho.operations, ho.ordered, ho.numbered,
    fun h body captured hf => (ho.closed h body captured hf).grows hg (List.suffix_refl made)⟩
  intro id x w hx
  change ((m.store.define m.global name v).get id).bindings.get? x = some w at hx
  rw [Store.get_define] at hx
  split at hx
  · rw [Bindings.get?_insert] at hx
    split at hx
    · cases hx
      exact hv
    · exact ho.bound id x w hx
  · exact ho.bound id x w hx

theorem orderly_add {scope : Scope} (hb : ∀ x v, scope.bindings.get? x = some v → v.Known made)
    (current : ScopeId) :
    Orderly { m with store := m.store.add scope, current := current } made := by
  have hg := grows_add m scope current
  refine ⟨rooted_grows hg ho.rooted, ?_, ho.builtins, ho.operations, ho.ordered, ho.numbered,
    fun h body captured hf => (ho.closed h body captured hf).grows hg (List.suffix_refl made)⟩
  intro id x v hx
  rw [Store.get_add] at hx
  split at hx
  · exact hb x v hx
  · exact ho.bound id x v hx

theorem orderly_make {f : Value} (hserial : f.serial = m.nextSerial)
    (hf : ∀ h body captured, f = .lambda h body captured → Closed m (f :: made) h body captured) :
    Orderly { m with nextSerial := m.nextSerial + 1 } (f :: made) := by
  have hlater : made <:+ f :: made := List.suffix_cons f made
  refine ⟨⟨ho.rooted.has, ho.rooted.outer⟩, fun id x v hx => (ho.bound id x v hx).mono hlater,
    fun x v hx => (ho.builtins x v hx).mono hlater,
    fun op hop => (ho.operations op hop).mono fun _ => List.mem_cons_of_mem f,
    List.pairwise_cons.2 ⟨fun g hg => hserial ▸ ho.numbered g hg, ho.ordered⟩, ?_, ?_⟩
  · intro g hg
    obtain rfl | hg := List.mem_cons.1 hg
    · exact hserial ▸ Nat.lt_succ_self _
    · exact Nat.lt_succ_of_lt (ho.numbered g hg)
  · intro h body captured hmem
    have hgrows : Grows m { m with nextSerial := m.nextSerial + 1 } := grows_of_store rfl rfl
    obtain heq | hmem := List.mem_cons.1 hmem
    · exact (hf h body captured heq.symm).grows hgrows (List.suffix_refl _)
    · exact (ho.closed h body captured hmem).grows hgrows hlater

/-- What a function captures has its scope before the function is there. -/
theorem sealed_captured (name : String) {names : List String} (hnames : names.Nodup) {body : Value}
    (hbody : body.Known made) {made' : List Value} (hmade : made <:+ made') {doc : String}
    {returns : Ty} :
    Sealed { m with store := m.store.addRoot (m.captured name) } made'
      ⟨m.nextSerial, name, doc, names.map fun p => ⟨p, .any, false⟩, returns⟩ body m.store.fresh := by
  have hget : (m.store.addRoot (m.captured name)).get m.store.fresh = ⟨m.captured name, []⟩ :=
    (m.store.get_add _ _).trans (if_pos rfl)
  have hearlier (g : Value) (hg : g ∈ made) : g ∈ made' ∧ g.serial < m.nextSerial :=
    ⟨hmade.mem hg, ho.numbered g hg⟩
  refine ⟨(m.store.has_add _ _).2 (Or.inl rfl), ?_, by rw [hget], ?_, ⟨names, hnames, rfl⟩, ?_⟩
  · exact fun heq => m.store.not_has_fresh (heq ▸ ho.rooted.has)
  · rw [hget, Machine.get?_captured, if_pos rfl]
  · intro g hg
    cases hg with
    | body hg => exact hearlier g (hbody g hg)
    | @captured _ _ v _ _ id x hid hx hv =>
      obtain rfl : id = m.store.fresh := by simpa [Store.chain, hget] using hid
      rw [hget] at hx
      exact hearlier g (ho.captured hx g hv)

theorem orderly_defineFunction (name : String) {names : List String} (hnames : names.Nodup)
    {body : Value} (hbody : body.Known made) :
    Orderly (m.defineFunction name names body).2 ((m.defineFunction name names body).1 :: made) := by
  -- the scope comes first, then the function, and last the definition of its name
  have hscope : Orderly { m with store := m.store.addRoot (m.captured name) } made :=
    orderly_add ho (fun _ _ => ho.captured) m.current
  have hfun := orderly_make hscope (f := (m.defineFunction name names body).1) rfl (by
    rintro h body captured ⟨⟩
    exact ⟨_, rfl, sealed_captured ho name hnames hbody (List.suffix_cons _ made)⟩)
  exact orderly_define hfun name (known_lambda.2 List.mem_cons_self)

theorem orderly_register {d : Definition} (hd : Honest (· ∈ made) d.run) :
    Orderly (m.register d) (.native (d.header m.nextSerial) (.host m.hostOperations.size) :: made) := by
  have hmade := orderly_make ho (f := .native (d.header m.nextSerial) (.host m.hostOperations.size))
    rfl (by rintro h body captured ⟨⟩)
  refine ⟨⟨ho.rooted.has, ho.rooted.outer⟩, hmade.bound, ?_, ?_, hmade.ordered, hmade.numbered, ?_⟩
  · intro x v hx
    change (m.builtins.insert d.name _).get? x = some v at hx
    rw [Bindings.get?_insert] at hx
    split at hx
    · cases hx
      exact known_native.2 List.mem_cons_self
    · exact hmade.builtins x v hx
  · intro op hop
    obtain hop | rfl := Array.mem_push.1 hop
    · exact hmade.operations op hop
    · exact hd.mono fun _ => List.mem_cons_of_mem _
  · exact fun h body captured hf =>
      (hmade.closed h body captured hf).grows (grows_of_store rfl rfl) (List.suffix_refl _)

end

theorem orderly_of_moment {config : ReaderConfig} {rolls : Nat → UInt64} {m : Machine}
    {made : List Value} (h : Moment config rolls m made) : Orderly m made := by
  induction h with
  | new => exact orderly_new config rolls
  | define name _ hv ih => exact orderly_define ih name hv
  | defineFunction name _ hnames hbody ih => exact orderly_defineFunction ih name hnames hbody
  | @enter m _ _ _ hb ih => exact orderly_add ih hb m.store.fresh
  | move id _ ih => exact orderly_congr ih rfl rfl rfl rfl rfl
  | perform w _ ih => exact orderly_congr ih rfl rfl rfl rfl rfl
  | register _ hd ih => exact orderly_register ih hd
  | make b _ ih => exact orderly_make ih rfl (by rintro h body captured ⟨⟩)

namespace Orderly

variable {m : Machine} {made : List Value} (ho : Orderly m made)
include ho

theorem nodup : made.Nodup := by
  refine ho.ordered.imp ?_
  rintro f g hlt rfl
  exact Nat.lt_irrefl _ hlt

theorem of_refers {f g : Value} (hf : f ∈ made) (h : Refers m.store f g) :
    g ∈ made ∧ g.serial < f.serial := by
  have hearlier : ∀ header body captured, f = .lambda header body captured →
      g ∈ made ∧ g.serial < f.serial := by
    rintro header body captured rfl
    obtain ⟨scope, rfl, hs⟩ := ho.closed header body captured hf
    exact hs.earlier g h
  cases h with
  | body => exact hearlier _ _ _ rfl
  | captured => exact hearlier _ _ _ rfl

/-- However many references lead from one function to another, the other has a smaller number. -/
theorem of_transGen {f g : Value} (hf : f ∈ made) (h : Relation.TransGen (Refers m.store) f g) :
    g ∈ made ∧ g.serial < f.serial := by
  induction h with
  | single h => exact ho.of_refers hf h
  | tail _ h ih =>
    obtain ⟨hg, hlt⟩ := ih
    obtain ⟨hk, hlt'⟩ := ho.of_refers hg h
    exact ⟨hk, Nat.lt_trans hlt' hlt⟩

theorem made_before {f g : Value} (hf : f ∈ made) (hg : g ∈ made) (hlt : g.serial < f.serial) :
    ∃ later earlier, made = later ++ f :: earlier ∧ g ∈ earlier := by
  obtain ⟨later, earlier, rfl⟩ := List.append_of_mem hf
  refine ⟨later, earlier, rfl, ?_⟩
  obtain hlater | hg := List.mem_append.1 hg
  · have hgt : f.serial < g.serial :=
      (List.pairwise_append.1 ho.ordered).2.2 g hlater f List.mem_cons_self
    omega
  · obtain rfl | hg := List.mem_cons.1 hg
    · omega
    · exact hg

theorem not_beq {h : Header} {body : Value} {captured : Option ScopeId} (hserial : h.serial = m.nextSerial)
    {v : Value} (hv : v.Known made) : (Value.lambda h body captured == v) = false := by
  cases v with
  | lambda h' body' captured' =>
    have hlt : h'.serial < m.nextSerial := ho.numbered _ (known_lambda.1 hv)
    have hne : h ≠ h' := by
      rintro rfl
      omega
    exact show (h == h') = false from beq_eq_false_iff_ne.2 hne
  | _ => rfl

end Orderly

end MiniLisp
