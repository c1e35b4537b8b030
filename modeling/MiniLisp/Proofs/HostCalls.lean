import MiniLisp.Proofs.Builtins

/-! Functions of the host. A typed function behind an adapter is given the payloads of its arguments in
order, and runs only if there are as many arguments as it demands and each carries what is demanded of it
(`adapt_eq_iff`, `adaptRest_eq_iff`). A function that declares the types it demands is never given
anything else: calling it fails for the declared count, for the first argument that cannot be converted
or for its arity, and otherwise does what the function does (`Definition.Sound.exec_apply_iff`). -/

namespace MiniLisp

namespace Item

/-- The value that carries a payload. -/
def carry : (i : Item) → i.Payload → Value
  | number, x => .number x
  | bool, b => .bool b
  | text, s => .string s
  | any, v => v

/-- The first of the values that is not of the demanded kind. -/
def FirstBad (i : Item) (vs : List Value) (bad : Value) : Prop :=
  ∃ good more, vs = good ++ bad :: more ∧ (∀ v ∈ good, v.Fits i.ty) ∧ ¬ bad.Fits i.ty

variable (i : Item)

theorem extract_carry (p : i.Payload) : i.extract (i.carry p) = .ok p := by
  cases i <;> rfl

variable {i}

theorem exists_carry {v : Value} (h : v.Fits i.ty) : ∃ p, v = i.carry p := by
  obtain ⟨p, hp⟩ := extract_of_fits h
  refine ⟨p, ?_⟩
  cases i with
  | any => exact Except.ok.inj hp
  | number | bool | text =>
    cases v <;> cases hp
    rfl

theorem extract_of_not_fits {v : Value} (h : ¬ v.Fits i.ty) :
    i.extract v = .error (.wrongArgument i.ty v) := by
  cases i with
  | any => exact absurd (Or.inl rfl) h
  | number | bool | text =>
    cases v with
    | number | bool | string => first | rfl | exact absurd (Or.inr rfl) h
    | _ => rfl

theorem extractAll_carry (ps : List i.Payload) : i.extractAll (ps.map i.carry) = .ok ps := by
  induction ps with
  | nil => rfl
  | cons p ps ih =>
    rw [List.map_cons, extractAll_cons, extract_carry, ih]
    rfl

theorem extractAll_of_firstBad {vs : List Value} {bad : Value} (h : i.FirstBad vs bad) :
    i.extractAll vs = .error (.wrongArgument i.ty bad) := by
  obtain ⟨good, more, rfl, hgood, hbad⟩ := h
  induction good with
  | nil =>
    rw [List.nil_append, extractAll_cons, extract_of_not_fits hbad]
    rfl
  | cons v good ih =>
    obtain ⟨p, hp⟩ := extract_of_fits (hgood v List.mem_cons_self)
    rw [List.cons_append, extractAll_cons, hp, ih fun w hw => hgood w (List.mem_cons_of_mem v hw)]
    rfl

theorem carry_or_firstBad (i : Item) (vs : List Value) :
    (∃ ps : List i.Payload, vs = ps.map i.carry) ∨ ∃ bad, i.FirstBad vs bad := by
  induction vs with
  | nil => exact Or.inl ⟨[], rfl⟩
  | cons v vs ih =>
    by_cases hv : v.Fits i.ty
    · obtain ⟨p, hp⟩ := exists_carry hv
      rcases ih with ⟨ps, hps⟩ | ⟨bad, good, more, hvs, hgood, hbad⟩
      · exact Or.inl ⟨p :: ps, by rw [hp, hps, List.map_cons]⟩
      · refine Or.inr ⟨bad, v :: good, more, by rw [hvs, List.cons_append], ?_, hbad⟩
        intro w hw
        rcases List.mem_cons.1 hw with rfl | hw
        · exact hv
        · exact hgood w hw
    · exact Or.inr ⟨v, [], vs, rfl, by simp, hv⟩

end Item

namespace Demand

/-- The argument is of the demanded kind, and this is its payload. -/
def Carries : (d : Demand) → Value → d.Payload → Prop
  | one i, v, p => v = i.carry p
  | listOf i, v, ps => ∃ quoted opened, v = .list (ps.map i.carry) quoted opened

/-- The argument is not of the demanded kind, or is a list with an element that is not, and this is the
complaint: about the argument, or about the first such element. -/
def Refuses : Demand → Value → Cause → Prop
  | one i, v, c => ¬ v.Fits i.ty ∧ c = .wrongArgument i.ty v
  | listOf i, v, c => v.ty ≠ .list ∧ c = .wrongArgument .list v ∨
    ∃ items quoted opened bad,
      v = .list items quoted opened ∧ i.FirstBad items bad ∧ c = .wrongArgument i.ty bad

theorem extract_of_carries {d : Demand} {v : Value} {p : d.Payload} (h : d.Carries v p) :
    d.extract v = .ok p := by
  cases d with
  | one i =>
    obtain rfl : v = i.carry p := h
    exact i.extract_carry p
  | listOf i =>
    obtain ⟨quoted, opened, rfl⟩ : ∃ quoted opened, v = .list (p.map i.carry) quoted opened := h
    exact Item.extractAll_carry p

theorem extract_of_refuses {d : Demand} {v : Value} {c : Cause} (h : d.Refuses v c) :
    d.extract v = .error c := by
  cases d with
  | one i =>
    obtain ⟨hv, rfl⟩ : ¬ v.Fits i.ty ∧ c = .wrongArgument i.ty v := h
    exact Item.extract_of_not_fits hv
  | listOf i =>
    rcases h with ⟨hv, rfl⟩ | ⟨items, quoted, opened, bad, rfl, hbad, rfl⟩
    · cases v with
      | list => exact absurd rfl hv
      | _ => rfl
    · exact Item.extractAll_of_firstBad hbad

theorem carries_or_refuses (d : Demand) (v : Value) : (∃ p, d.Carries v p) ∨ ∃ c, d.Refuses v c := by
  cases d with
  | one i =>
    by_cases hv : v.Fits i.ty
    · exact Or.inl (Item.exists_carry hv)
    · exact Or.inr ⟨_, hv, rfl⟩
  | listOf i =>
    cases v with
    | list items quoted opened =>
      rcases i.carry_or_firstBad items with ⟨ps, rfl⟩ | ⟨bad, hbad⟩
      · exact Or.inl ⟨ps, quoted, opened, rfl⟩
      · exact Or.inr ⟨_, Or.inr ⟨items, quoted, opened, bad, rfl, hbad, rfl⟩⟩
    | _ => exact Or.inr ⟨_, Or.inl ⟨by simp [Value.ty], rfl⟩⟩

/-- Each argument carries a payload, and `x` is what the function makes of them, given in order. -/
def Fed {r : Type} : (ds : List Demand) → Handler ds r → List Value → r → Prop
  | [], f, [], x => x = f
  | d :: ds, f, v :: vs, x => ∃ p, d.Carries v p ∧ Fed ds (f p) vs x
  | _, _, _, _ => False

/-- The complaint about the leftmost argument that is refused; all before it carry payloads. -/
inductive FirstRefused : List Demand → List Value → Cause → Prop
  | here {d : Demand} {ds : List Demand} {v : Value} {vs : List Value} {c : Cause} :
    d.Refuses v c → FirstRefused (d :: ds) (v :: vs) c
  | later {d : Demand} {ds : List Demand} {v : Value} {vs : List Value} {p : d.Payload} {c : Cause} :
    d.Carries v p → FirstRefused ds vs c → FirstRefused (d :: ds) (v :: vs) c

variable {r : Type} {ds : List Demand} {f : Handler ds r} {vs : List Value}

theorem feed_cons {d : Demand} (f : Handler (d :: ds) r) (v : Value) (vs : List Value) :
    feed (d :: ds) f (v :: vs) = (d.extract v >>= fun p => feed ds (f p) vs) := rfl

theorem length_of_fed {x : r} (h : Fed ds f vs x) : vs.length = ds.length := by
  induction ds generalizing vs with
  | nil =>
    cases vs with
    | nil => rfl
    | cons => exact h.elim
  | cons d ds ih =>
    cases vs with
    | nil => exact h.elim
    | cons v vs =>
      obtain ⟨p, -, hfed⟩ := h
      simp [ih hfed]

theorem feed_of_fed {x : r} (h : Fed ds f vs x) (more : List Value) : feed ds f (vs ++ more) = .ok x := by
  induction ds generalizing vs with
  | nil =>
    cases vs with
    | nil =>
      obtain rfl : x = f := h
      rfl
    | cons => exact h.elim
  | cons d ds ih =>
    cases vs with
    | nil => exact h.elim
    | cons v vs =>
      obtain ⟨p, hp, hfed⟩ := h
      rw [List.cons_append, feed_cons, extract_of_carries hp]
      exact ih hfed

theorem feed_of_firstRefused {c : Cause} (h : FirstRefused ds vs c) (f : Handler ds r)
    (more : List Value) : feed ds f (vs ++ more) = .error c := by
  induction h with
  | here hv =>
    rw [List.cons_append, feed_cons, extract_of_refuses hv]
    rfl
  | later hp _ ih =>
    rw [List.cons_append, feed_cons, extract_of_carries hp]
    exact ih _

theorem fed_or_firstRefused (f : Handler ds r) (h : vs.length = ds.length) :
    (∃ x, Fed ds f vs x) ∨ ∃ c, FirstRefused ds vs c := by
  induction ds generalizing vs with
  | nil =>
    obtain rfl := List.eq_nil_of_length_eq_zero h
    exact Or.inl ⟨f, rfl⟩
  | cons d ds ih =>
    obtain ⟨v, vs, rfl⟩ := List.exists_cons_of_length_eq_add_one h
    rcases d.carries_or_refuses v with ⟨p, hp⟩ | ⟨c, hc⟩
    · rcases ih (f p) (Nat.succ.inj h) with ⟨x, hx⟩ | ⟨c, hc⟩
      · exact Or.inl ⟨x, p, hp, hx⟩
      · exact Or.inr ⟨c, .later hp hc⟩
    · exact Or.inr ⟨c, .here hc⟩

theorem fed_of_fits {items : List Item} (f : Handler (items.map one) r)
    (h : List.Forall₂ Value.Fits (items.map Item.ty) vs) : ∃ x, Fed (items.map one) f vs x := by
  induction items generalizing vs with
  | nil =>
    cases h
    exact ⟨f, rfl⟩
  | cons i items ih =>
    cases h with
    | cons hv hvs =>
      obtain ⟨p, hp⟩ := Item.exists_carry hv
      obtain ⟨x, hx⟩ := ih (f p) hvs
      exact ⟨x, p, hp, hx⟩

/-- The first arguments are fed to the function, and those behind them are the rest of them. -/
def FedRest (ds : List Demand) (rest : Item) (f : Handler ds (List rest.Payload → r))
    (args : List Value) (x : r) : Prop :=
  ∃ vs g ps, args = vs ++ ps.map rest.carry ∧ Fed ds f vs g ∧ x = g ps

end Demand

open Demand

/-! Adapted operations. -/

theorem eq_iff_of_exists {α : Type} {P : α → Prop} {x : α} (hx : ∀ a, P a → x = a) (h : ∃ a, P a)
    (a : α) : x = a ↔ P a := by
  constructor
  · rintro rfl
    obtain ⟨b, hb⟩ := h
    rwa [hx b hb]
  · exact hx a

/-- What an adapted function does with its arguments: it counts them, then refuses the leftmost that is
not as demanded, and then runs. -/
inductive Adapted (ds : List Demand) (f : Handler ds (Op Value)) (args : List Value) :
    Op Value → Prop
  | count : args.length ≠ ds.length →
    Adapted ds f args (throw (.adapterCount (.exactly ds.length) args.length))
  | refused {c : Cause} : args.length = ds.length → FirstRefused ds args c →
    Adapted ds f args (throw c)
  | runs {run : Op Value} : Fed ds f args run → Adapted ds f args run

/-- The same for a function that takes any number of further arguments, all of one kind: the first of
these that is not as demanded is refused after all those before them are taken. -/
inductive AdaptedRest (ds : List Demand) (rest : Item)
    (f : Handler ds (List rest.Payload → Op Value)) (args : List Value) : Op Value → Prop
  | count : args.length < ds.length →
    AdaptedRest ds rest f args (throw (.adapterCount (.atLeast ds.length) args.length))
  | refused {vs more : List Value} {c : Cause} : args = vs ++ more → vs.length = ds.length →
    FirstRefused ds vs c → AdaptedRest ds rest f args (throw c)
  | restRefused {vs more : List Value} {g : List rest.Payload → Op Value} {bad : Value} :
    args = vs ++ more → Fed ds f vs g → rest.FirstBad more bad →
    AdaptedRest ds rest f args (throw (.wrongArgument rest.ty bad))
  | runs {run : Op Value} : FedRest ds rest f args run → AdaptedRest ds rest f args run

section

variable {ds : List Demand} {f : Handler ds (Op Value)} {args : List Value}

theorem adapt_of_length (h : args.length = ds.length) :
    adapt ds f args = (Op.ofExcept (feed ds f args) >>= fun run => run) := by
  have hcount : (Arity.exactly ds.length).admits args.length := by simp [Arity.admits, h]
  rw [adapt, countAdapted_of_admits hcount, Op.ofExcept_ok_bind]

theorem adapt_of_adapted {op : Op Value} (h : Adapted ds f args op) : adapt ds f args = op := by
  cases h with
  | count h =>
    have hcount : ¬ (Arity.exactly ds.length).admits args.length := by simpa [Arity.admits] using h
    rw [adapt, countAdapted_of_not_admits hcount]
    rfl
  | refused h hfirst =>
    have hfeed := feed_of_firstRefused hfirst f []
    rw [List.append_nil] at hfeed
    rw [adapt_of_length h, hfeed]
    rfl
  | runs hfed =>
    have hfeed := feed_of_fed hfed []
    rw [List.append_nil] at hfeed
    rw [adapt_of_length (length_of_fed hfed), hfeed]
    rfl

theorem exists_adapted (ds : List Demand) (f : Handler ds (Op Value)) (args : List Value) :
    ∃ op, Adapted ds f args op := by
  by_cases h : args.length = ds.length
  · rcases fed_or_firstRefused f h with ⟨run, hfed⟩ | ⟨c, hfirst⟩
    · exact ⟨run, .runs hfed⟩
    · exact ⟨_, .refused h hfirst⟩
  · exact ⟨_, .count h⟩

theorem adapt_eq_iff {op : Op Value} : adapt ds f args = op ↔ Adapted ds f args op :=
  eq_iff_of_exists (fun _ => adapt_of_adapted) (exists_adapted ds f args) op

end

section

variable {ds : List Demand} {rest : Item} {f : Handler ds (List rest.Payload → Op Value)}

theorem adaptRest_of_length {vs : List Value} (h : vs.length = ds.length) (more : List Value) :
    adaptRest ds rest f (vs ++ more) = (Op.ofExcept (feed ds f (vs ++ more)) >>= fun g =>
      Op.ofExcept (rest.extractAll more) >>= fun ps => g ps) := by
  have hcount : (Arity.atLeast ds.length).admits (vs ++ more).length := by simp [Arity.admits, h]
  rw [adaptRest, countAdapted_of_admits hcount, Op.ofExcept_ok_bind, List.drop_left' h]

theorem adaptRest_of_fed {vs : List Value} {g : List rest.Payload → Op Value} (h : Fed ds f vs g)
    (more : List Value) :
    adaptRest ds rest f (vs ++ more) = (Op.ofExcept (rest.extractAll more) >>= fun ps => g ps) := by
  rw [adaptRest_of_length (length_of_fed h), feed_of_fed h, Op.ofExcept_ok_bind]

theorem adaptRest_of_adapted {args : List Value} {op : Op Value}
    (h : AdaptedRest ds rest f args op) : adaptRest ds rest f args = op := by
  cases h with
  | count h =>
    have hcount : ¬ (Arity.atLeast ds.length).admits args.length := by simpa [Arity.admits] using h
    rw [adaptRest, countAdapted_of_not_admits hcount]
    rfl
  | refused hargs h hfirst =>
    rw [hargs, adaptRest_of_length h, feed_of_firstRefused hfirst]
    rfl
  | restRefused hargs hfed hbad =>
    rw [hargs, adaptRest_of_fed hfed, Item.extractAll_of_firstBad hbad]
    rfl
  | runs hfed =>
    obtain ⟨vs, g, ps, rfl, hfed, rfl⟩ := hfed
    rw [adaptRest_of_fed hfed, Item.extractAll_carry, Op.ofExcept_ok_bind]

theorem exists_adaptedRest (ds : List Demand) (rest : Item)
    (f : Handler ds (List rest.Payload → Op Value)) (args : List Value) :
    ∃ op, AdaptedRest ds rest f args op := by
  by_cases h : args.length < ds.length
  · exact ⟨_, .count h⟩
  · have hsplit := (List.take_append_drop ds.length args).symm
    have hlen : (args.take ds.length).length = ds.length := List.length_take_of_le (by omega)
    rcases fed_or_firstRefused f hlen with ⟨g, hfed⟩ | ⟨c, hfirst⟩
    · rcases rest.carry_or_firstBad (args.drop ds.length) with ⟨ps, hps⟩ | ⟨bad, hbad⟩
      · exact ⟨g ps, .runs ⟨_, g, ps, hps ▸ hsplit, hfed, rfl⟩⟩
      · exact ⟨_, .restRefused hsplit hfed hbad⟩
    · exact ⟨_, .refused hsplit hlen hfirst⟩

theorem adaptRest_eq_iff {args : List Value} {op : Op Value} :
    adaptRest ds rest f args = op ↔ AdaptedRest ds rest f args op :=
  eq_iff_of_exists (fun _ => adaptRest_of_adapted) (exists_adaptedRest ds rest f args) op

end

/-! Calls. -/

open Eval

/-- How a call ends of a function that is declared so: with the complaint about the declared count, else
about the first argument that cannot be converted, else about the arity; or else with what the operation
does that `Runs` relates to the converted arguments. -/
inductive Called (d : Definition) (Runs : List Value → Op Value → Prop) (args : List Value)
    (m : Machine) : Except Error Value × Machine → Prop
  | count : ¬ (Arity.ofParams d.params).admits args.length →
    Called d Runs args m
      (.error (.ofCause (.argumentCount (Arity.ofParams d.params) args.length)), m)
  | unconvertible {i : Nat} {c : Cause} : (Arity.ofParams d.params).admits args.length →
    FirstUnconvertible d.params args i c → Called d Runs args m (.error (.ofCause c), m)
  | arity {vs : List Value} : (Arity.ofParams d.params).admits args.length →
    Converted d.params args vs → ¬ d.arity.admits args.length →
    Called d Runs args m (.error (.ofCause (.argumentCount d.arity args.length)), m)
  | runs {vs : List Value} {run : Op Value} : (Arity.ofParams d.params).admits args.length →
    Converted d.params args vs → d.arity.admits args.length → Runs vs run →
    Called d Runs args m (exec (perform run) m)

/-- The operation of a definition does what `Runs` says with all arguments that are as declared, once
their number passes the arity. -/
structure Definition.Sound (d : Definition) (Runs : List Value → Op Value → Prop) : Prop where
  refuses : ∀ vs, (Arity.ofParams d.params).admits vs.length → ¬ d.arity.admits vs.length →
    d.run vs = throw (.argumentCount d.arity vs.length)
  run_eq : ∀ vs run, d.arity.admits vs.length → Runs vs run → d.run vs = run
  runs : ∀ vs, (Arity.ofParams d.params).admits vs.length →
    (∀ (i : Nat) (v : Value), vs[i]? = some v → v.Fits (declaredTy d.params i)) → ∃ run, Runs vs run

theorem exec_apply_host {d : Definition} {m : Machine} {slot : Nat}
    (h : m.hostOperations[slot]? = some d.run) (serial : Nat) (k : Level) (args : List Value) :
    exec (k.apply (.native (d.header serial) (.host slot)) args) m =
      match bindArguments d.params args with
      | .ok vs => exec (perform (d.run vs)) m
      | .error c => (.error (.ofCause c), m) := by
  have hrun : m.operation (.host slot) = d.run := by simp [Machine.operation, h]
  rw [exec_apply_native, hrun]
  rfl

namespace Definition.Sound

variable {d : Definition} {Runs : List Value → Op Value → Prop} (hd : d.Sound Runs)
include hd

theorem exists_called (args : List Value) (m : Machine) : ∃ r, Called d Runs args m r := by
  by_cases hcount : (Arity.ofParams d.params).admits args.length
  · rcases convertible_or_firstUnconvertible d.params args with hconv | ⟨i, c, hfirst⟩
    · obtain ⟨vs, hvs⟩ := hconv.convertArguments
      have hconverted := converted_of_convertArguments hvs
      by_cases harity : d.arity.admits args.length
      · obtain ⟨run, hrun⟩ := hd.runs vs (hconverted.length ▸ hcount) fun _ _ => hconverted.fits
        exact ⟨_, .runs hcount hconverted harity hrun⟩
      · exact ⟨_, .arity hcount hconverted harity⟩
    · exact ⟨_, .unconvertible hcount hfirst⟩
  · exact ⟨_, .count hcount⟩

variable {m : Machine} {slot : Nat} (hslot : m.hostOperations[slot]? = some d.run)
include hslot

theorem exec_apply_of_called {args : List Value} {r : Except Error Value × Machine}
    (h : Called d Runs args m r) (serial : Nat) (k : Level) :
    exec (k.apply (.native (d.header serial) (.host slot)) args) m = r := by
  rw [exec_apply_host hslot]
  cases h with
  | count hcount => rw [bindArguments_of_not_admits hcount]
  | unconvertible hcount hfirst =>
    rw [bindArguments_of_admits hcount, convertArguments_eq_error_iff.2 ⟨_, hfirst⟩]
  | arity hcount hconverted harity =>
    rw [bindArguments_of_admits hcount, hconverted.convertArguments]
    rw [← hconverted.length] at hcount harity ⊢
    simp only [hd.refuses _ hcount harity]
    rfl
  | runs hcount hconverted harity hrun =>
    rw [bindArguments_of_admits hcount, hconverted.convertArguments]
    rw [← hconverted.length] at harity
    simp only [hd.run_eq _ _ harity hrun]

theorem exec_apply_iff (serial : Nat) (k : Level) (args : List Value)
    (r : Except Error Value × Machine) :
    exec (k.apply (.native (d.header serial) (.host slot)) args) m = r ↔ Called d Runs args m r :=
  eq_iff_of_exists (fun _ h => hd.exec_apply_of_called hslot h serial k) (hd.exists_called args m) r

end Definition.Sound

/-! Functions that declare what they demand. -/

/-- The parameters that a host declares, one for each argument. -/
def hostParams (params : List (String × Ty)) : List Param := params.map fun (p, ty) => ⟨p, ty, false⟩

/-- The parameter that a host declares for the rest of the arguments. -/
def restParam (last : String × Ty) : Param := ⟨last.1, last.2, true⟩

section

variable (params : List (String × Ty)) (last : String × Ty)

theorem rest_of_mem_hostParams {p : Param} (h : p ∈ hostParams params) : p.rest = false := by
  obtain ⟨q, -, rfl⟩ := List.mem_map.1 h
  rfl

theorem length_hostParams : (hostParams params).length = params.length :=
  List.length_map _

theorem map_ty_hostParams : (hostParams params).map Param.ty = params.map Prod.snd :=
  List.map_map

theorem ofParams_hostParams : Arity.ofParams (hostParams params) = .exactly params.length := by
  rw [ofParams_of_fixed fun p => rest_of_mem_hostParams params, length_hostParams]

theorem ofParams_restParam :
    Arity.ofParams (hostParams params ++ [restParam last]) = .atLeast params.length := by
  simp [Arity.ofParams, restParam, length_hostParams]

theorem declaredTy_of_lt {i : Nat} (h : i < params.length) :
    declaredTy (hostParams params ++ [restParam last]) i = declaredTy (hostParams params) i := by
  rw [← length_hostParams] at h
  simp [declaredTy, List.getElem?_append_left h, List.getElem?_eq_getElem h]

theorem declaredTy_of_le {i : Nat} (h : params.length ≤ i) :
    declaredTy (hostParams params ++ [restParam last]) i = last.2 := by
  rw [← length_hostParams] at h
  rw [declaredTy, List.getElem?_append_right h]
  cases i - (hostParams params).length <;> simp [Option.filter, restParam]

end

section

variable {params : List (String × Ty)} {items : List Item}
  (hty : params.map Prod.snd = items.map Item.ty) (name : String)
include hty

theorem forall₂_fits_of_declared {vs : List Value} (hlen : vs.length = params.length)
    (h : ∀ (i : Nat) (v : Value), vs[i]? = some v → v.Fits (declaredTy (hostParams params) i)) :
    List.Forall₂ Value.Fits (items.map Item.ty) vs := by
  rw [← hty, ← map_ty_hostParams]
  exact forall₂_fits (by rw [hlen, length_hostParams]) h

theorem sound_hostFixed (f : Handler (items.map .one) (Op Value)) :
    (Definition.hostFixed name params (adapt (items.map .one) f)).Sound (Fed (items.map .one) f) := by
  have hparams : (Definition.hostFixed name params (adapt (items.map .one) f)).params =
      hostParams params := rfl
  have harity : (Definition.hostFixed name params (adapt (items.map .one) f)).arity =
      .exactly (hostParams params).length := rfl
  constructor
  · -- the arity is the declared count, which has been checked
    intro vs hadmits hrefuses
    rw [hparams, ofParams_hostParams] at hadmits
    rw [harity, length_hostParams] at hrefuses
    exact absurd hadmits hrefuses
  · intro vs run _ hfed
    exact adapt_eq_iff.2 (.runs hfed)
  · intro vs hadmits hfits
    rw [hparams, ofParams_hostParams] at hadmits
    exact fed_of_fits f (forall₂_fits_of_declared hty (by simpa [Arity.admits] using hadmits) hfits)

theorem sound_hostVariadic {item : Item} {last : String × Ty} (hlast : last.2 = item.ty) (arity : Arity)
    (f : Handler (items.map .one) (List item.Payload → Op Value)) :
    (Definition.hostVariadic name params last arity (adaptRest (items.map .one) item f)).Sound
      (FedRest (items.map .one) item f) := by
  have hparams : (Definition.hostVariadic name params last arity
      (adaptRest (items.map .one) item f)).params = hostParams params ++ [restParam last] := rfl
  have harity : (Definition.hostVariadic name params last arity
      (adaptRest (items.map .one) item f)).arity = arity := rfl
  have hrun (vs : List Value) : (Definition.hostVariadic name params last arity
      (adaptRest (items.map .one) item f)).run vs =
        (Op.ofExcept (arity.check vs.length) >>= fun _ => adaptRest (items.map .one) item f vs) := rfl
  constructor
  · intro vs _ hrefuses
    rw [harity] at hrefuses
    rw [hrun, harity, Arity.check_of_not_admits hrefuses]
    rfl
  · intro vs run hadmits hfed
    rw [harity] at hadmits
    rw [hrun, Arity.check_of_admits hadmits, Op.ofExcept_ok_bind]
    exact adaptRest_eq_iff.2 (.runs hfed)
  · intro vs hadmits hfits
    rw [hparams, ofParams_restParam] at hadmits
    rw [hparams] at hfits
    have hlen : params.length ≤ vs.length := by simpa [Arity.admits] using hadmits
    have hahead : List.Forall₂ Value.Fits (items.map Item.ty) (vs.take params.length) := by
      apply forall₂_fits_of_declared hty (List.length_take_of_le hlen)
      intro i v hv
      rw [List.getElem?_take] at hv
      split_ifs at hv with hi
      exact declaredTy_of_lt params last hi ▸ hfits i v hv
    have hbehind : ∀ v ∈ vs.drop params.length, v.Fits item.ty := by
      intro v hv
      obtain ⟨i, hi⟩ := List.mem_iff_getElem?.1 hv
      rw [List.getElem?_drop] at hi
      rw [← hlast, ← declaredTy_of_le params last (Nat.le_add_right params.length i)]
      exact hfits _ v hi
    obtain ⟨g, hg⟩ := fed_of_fits f hahead
    rcases item.carry_or_firstBad (vs.drop params.length) with ⟨ps, hps⟩ | ⟨bad, good, more, hsplit, -, hbad⟩
    · exact ⟨g ps, _, g, ps, by rw [← hps, List.take_append_drop], hg, rfl⟩
    · exact absurd (hbehind bad (by rw [hsplit]; simp)) hbad

end

/-- Typed functions check their arguments in order and never half run. An adapter complains about the
count, else about the leftmost argument that is not as demanded, else runs the function on the payloads.
Where the declared types are the demanded ones, a call hears none of these complaints. -/
theorem adapted_functions_checked :
    (∀ (ds : List Demand) (f : Handler ds (Op Value)) (args : List Value) (op : Op Value),
      adapt ds f args = op ↔ Adapted ds f args op) ∧
    (∀ (ds : List Demand) (rest : Item) (f : Handler ds (List rest.Payload → Op Value))
      (args : List Value) (op : Op Value), adaptRest ds rest f args = op ↔ AdaptedRest ds rest f args op) ∧
    ∀ (name : String) (params : List (String × Ty)) (items : List Item),
      params.map Prod.snd = items.map Item.ty →
      ∀ (m : Machine) (slot serial : Nat) (k : Level) (args : List Value)
        (r : Except Error Value × Machine),
        (∀ f : Handler (items.map .one) (Op Value),
          let d := Definition.hostFixed name params (adapt (items.map .one) f)
          m.hostOperations[slot]? = some d.run →
          (exec (k.apply (.native (d.header serial) (.host slot)) args) m = r ↔
            Called d (Fed (items.map .one) f) args m r)) ∧
        ∀ (last : String × Ty) (rest : Item) (arity : Arity)
          (f : Handler (items.map .one) (List rest.Payload → Op Value)), last.2 = rest.ty →
          let d := Definition.hostVariadic name params last arity (adaptRest (items.map .one) rest f)
          m.hostOperations[slot]? = some d.run →
          (exec (k.apply (.native (d.header serial) (.host slot)) args) m = r ↔
            Called d (FedRest (items.map .one) rest f) args m r) := by
  refine ⟨fun _ _ _ _ => adapt_eq_iff, fun _ _ _ _ _ => adaptRest_eq_iff, ?_⟩
  intro name params items hty m slot serial k args r
  constructor
  · intro f d hslot
    exact (sound_hostFixed hty name f).exec_apply_iff hslot serial k args r
  · intro last rest arity f hlast d hslot
    exact (sound_hostVariadic hty name hlast arity f).exec_apply_iff hslot serial k args r

/-- A function that wants at least two arguments is given one: it is converted, and refused for the arity
before the adapter is reached. -/
theorem adapted_functions_checked_arity :
    let d := Definition.hostVariadic "tag" [("flag", .bool)] ("texts", .string) (.atLeast 2)
      (adaptRest ([.bool].map .one) .text fun flag texts => Op.answer (.bool (flag && texts.isEmpty)))
    let m := (Machine.new {} fun _ => 0).register d
    m.hostOperations[0]? = some d.run ∧
      exec ((Level.ofDepth 1).apply (.native (d.header 27) (.host 0)) [.string ""]) m =
        (.error (.ofCause (.argumentCount (.atLeast 2) 1)), m) := by
  intro d m
  have hslot : m.hostOperations[0]? = some d.run := rfl
  have hconverted : Converted d.params [.string ""] [.bool false] := by
    refine ⟨rfl, ?_⟩
    intro i a ha
    cases i with
    | zero =>
      obtain rfl : .string "" = a := by simpa using ha
      exact ⟨.bool false, rfl, rfl⟩
    | succ i => simp at ha
  refine ⟨hslot, ?_⟩
  apply (((adapted_functions_checked.2.2 "tag" [("flag", .bool)] [.bool] rfl m 0 27 _ _ _).2
    ("texts", .string) .text (.atLeast 2) _ rfl) hslot).2
  exact .arity rfl hconverted (by decide)

end MiniLisp
