import MiniLisp.Arguments

/-! Arguments converted toward their declared types. Each argument has a declared type by its place,
the last one for all that a rest parameter takes; converting a row of arguments converts each toward
the type of its place (`converted_of_convertArguments`), and fails for the first that cannot be
converted (`convertArguments_eq_error_iff`). -/

namespace MiniLisp

namespace Value

/-- A value of the type; every value fits `any`. -/
def Fits (t : Ty) (v : Value) : Prop := t = .any ∨ v.ty = t

instance (t : Ty) (v : Value) : Decidable (v.Fits t) := inferInstanceAs (Decidable (_ ∨ _))

theorem coerce_any (v : Value) : v.coerce .any = .ok v := by simp [coerce]

theorem fits_of_coerce {t : Ty} {v w : Value} (h : v.coerce t = .ok w) : w.Fits t := by
  unfold coerce at h
  split at h
  · rename_i ht
    cases h
    exact ht.imp id Eq.symm
  · split at h
    · cases h
    · cases t <;> cases h <;> exact Or.inr rfl

theorem cause_of_coerce {t : Ty} {v : Value} {c : Cause} (h : v.coerce t = .error c) :
    c = .unconvertible v t ∨ c = .wrongType v t := by
  unfold coerce at h
  split at h
  · cases h
  · split at h
    · cases h
      exact Or.inl rfl
    · cases t <;> cases h <;> exact Or.inr rfl

end Value

/-- The declared type of the argument in place `i`: that of the parameter in its place or, behind the
last one, of a rest parameter; what no parameter is declared for may be anything. -/
def declaredTy (params : List Param) (i : Nat) : Ty :=
  ((params[i]?.or (params.getLast?.filter Param.rest)).map Param.ty).getD .any

theorem declaredTy_nil (i : Nat) : declaredTy [] i = .any := rfl

theorem declaredTy_succ (p : Param) (ps : List Param) (i : Nat) :
    declaredTy (p :: ps) (i + 1) = declaredTy (p.behind ps) i := by
  cases ps with
  | nil =>
    cases hp : p.rest with
    | true => cases i <;> simp [declaredTy, Param.behind, Option.filter, hp]
    | false => simp [declaredTy, Param.behind, Option.filter, hp]
  | cons q qs => simp [declaredTy, Param.behind]

/-- Each of the values is the argument in its place, converted toward the declared type. -/
structure Converted (params : List Param) (args vs : List Value) : Prop where
  length : vs.length = args.length
  coerce : ∀ (i : Nat) (a : Value), args[i]? = some a →
    ∃ v, vs[i]? = some v ∧ a.coerce (declaredTy params i) = .ok v

theorem Converted.fits {params : List Param} {args vs : List Value} (h : Converted params args vs)
    {i : Nat} {v : Value} (hv : vs[i]? = some v) : v.Fits (declaredTy params i) := by
  obtain ⟨hlt, -⟩ := List.getElem?_eq_some_iff.1 hv
  obtain ⟨w, hw, hcoerce⟩ := h.coerce i _ (List.getElem?_eq_getElem (h.length ▸ hlt))
  obtain rfl : w = v := Option.some.inj (hw.symm.trans hv)
  exact Value.fits_of_coerce hcoerce

/-- Each argument can be converted toward the declared type of its place. -/
def Convertible (params : List Param) (args : List Value) : Prop :=
  ∀ (i : Nat) (a : Value), args[i]? = some a → ∃ v, a.coerce (declaredTy params i) = .ok v

theorem Converted.convertible {params : List Param} {args vs : List Value}
    (h : Converted params args vs) : Convertible params args := by
  intro i a ha
  obtain ⟨v, -, hv⟩ := h.coerce i a ha
  exact ⟨v, hv⟩

/-- The argument in place `i` cannot be converted, for the cause `c`, and all before it can. -/
structure FirstUnconvertible (params : List Param) (args : List Value) (i : Nat) (c : Cause) :
    Prop where
  here : ∃ a, args[i]? = some a ∧ a.coerce (declaredTy params i) = .error c
  before : ∀ (j : Nat) (a : Value), j < i → args[j]? = some a →
    ∃ v, a.coerce (declaredTy params j) = .ok v

theorem FirstUnconvertible.not_convertible {params : List Param} {args : List Value} {i : Nat}
    {c : Cause} (h : FirstUnconvertible params args i c) : ¬ Convertible params args := by
  intro hconv
  obtain ⟨a, ha, hcoerce⟩ := h.here
  obtain ⟨v, hv⟩ := hconv i a ha
  rw [hv] at hcoerce
  cases hcoerce

theorem firstUnconvertible_zero {p : Param} {ps : List Param} {a : Value} {args : List Value}
    {c : Cause} : FirstUnconvertible (p :: ps) (a :: args) 0 c ↔ a.coerce p.ty = .error c := by
  constructor
  · rintro ⟨⟨b, hb, hcoerce⟩, -⟩
    obtain rfl : a = b := by simpa using hb
    exact hcoerce
  · intro hcoerce
    exact ⟨⟨a, rfl, hcoerce⟩, fun j _ hj => absurd hj (Nat.not_lt_zero j)⟩

theorem firstUnconvertible_succ {p : Param} {ps : List Param} {a : Value} {args : List Value} {i : Nat}
    {c : Cause} :
    FirstUnconvertible (p :: ps) (a :: args) (i + 1) c ↔
      (∃ v, a.coerce p.ty = .ok v) ∧ FirstUnconvertible (p.behind ps) args i c := by
  constructor
  · rintro ⟨⟨b, hb, hcoerce⟩, hbefore⟩
    rw [declaredTy_succ] at hcoerce
    refine ⟨hbefore 0 a (Nat.succ_pos i) rfl, ⟨b, by simpa using hb, hcoerce⟩, ?_⟩
    intro j d hj hd
    rw [← declaredTy_succ]
    exact hbefore (j + 1) d (Nat.succ_lt_succ hj) (by simpa using hd)
  · rintro ⟨hfirst, ⟨b, hb, hcoerce⟩, hbefore⟩
    rw [← declaredTy_succ] at hcoerce
    refine ⟨⟨b, by simpa using hb, hcoerce⟩, ?_⟩
    intro j d hj hd
    cases j with
    | zero =>
      obtain rfl : a = d := by simpa using hd
      exact hfirst
    | succ j =>
      rw [declaredTy_succ]
      exact hbefore j d (Nat.lt_of_succ_lt_succ hj) (by simpa using hd)

theorem convertArguments_cons (p : Param) (ps : List Param) (a : Value) (args : List Value) :
    convertArguments (p :: ps) (a :: args) =
      match a.coerce p.ty with
      | .error c => .error c
      | .ok v => (convertArguments (p.behind ps) args).map (v :: ·) := by
  rw [convertArguments]
  cases a.coerce p.ty with
  | error c => rfl
  | ok v => cases convertArguments (p.behind ps) args <;> rfl

theorem convertArguments_nil_right (params : List Param) : convertArguments params [] = .ok [] := by
  cases params <;> rfl

theorem converted_of_convertArguments {params : List Param} {args vs : List Value}
    (h : convertArguments params args = .ok vs) : Converted params args vs := by
  induction args generalizing params vs with
  | nil =>
    rw [convertArguments_nil_right] at h
    cases h
    exact ⟨rfl, by simp⟩
  | cons a args ih =>
    cases params with
    | nil =>
      obtain rfl : a :: args = vs := by simpa [convertArguments] using h
      exact ⟨rfl, fun i v hv => ⟨v, hv, Value.coerce_any v⟩⟩
    | cons p ps =>
      rw [convertArguments_cons] at h
      cases hc : a.coerce p.ty with
      | error c => simp [hc] at h
      | ok v =>
        cases hrest : convertArguments (p.behind ps) args with
        | error c => simp [hc, hrest, Except.map] at h
        | ok ws =>
          simp only [hc, hrest, Except.map, Except.ok.injEq] at h
          subst h
          have htail := ih hrest
          refine ⟨by simp [htail.length], ?_⟩
          intro i b hb
          cases i with
          | zero =>
            obtain rfl : a = b := by simpa using hb
            exact ⟨v, rfl, hc⟩
          | succ i =>
            rw [declaredTy_succ]
            exact htail.coerce i b (by simpa using hb)

theorem convertArguments_eq_error_iff {params : List Param} {args : List Value} {c : Cause} :
    convertArguments params args = .error c ↔ ∃ i, FirstUnconvertible params args i c := by
  induction args generalizing params with
  | nil =>
    rw [convertArguments_nil_right]
    constructor
    · intro h
      cases h
    · rintro ⟨i, ⟨a, ha, -⟩, -⟩
      simp at ha
  | cons a args ih =>
    cases params with
    | nil =>
      constructor
      · intro h
        cases h
      · rintro ⟨i, ⟨b, -, hcoerce⟩, -⟩
        rw [declaredTy_nil, Value.coerce_any] at hcoerce
        cases hcoerce
    | cons p ps =>
      rw [convertArguments_cons]
      cases hc : a.coerce p.ty with
      | error c' =>
        constructor
        · intro h
          obtain rfl : c' = c := Except.error.inj h
          exact ⟨0, firstUnconvertible_zero.2 hc⟩
        · rintro ⟨i, hi⟩
          cases i with
          | zero =>
            rw [firstUnconvertible_zero, hc] at hi
            rw [Except.error.inj hi]
          | succ i =>
            obtain ⟨⟨v, hv⟩, -⟩ := firstUnconvertible_succ.1 hi
            rw [hc] at hv
            cases hv
      | ok v =>
        have htail := @ih (p.behind ps)
        constructor
        · intro h
          cases hrest : convertArguments (p.behind ps) args with
          | ok ws => simp [hrest, Except.map] at h
          | error c' =>
            obtain rfl : c' = c := by simpa [hrest, Except.map] using h
            obtain ⟨i, hi⟩ := htail.1 hrest
            exact ⟨i + 1, firstUnconvertible_succ.2 ⟨⟨v, hc⟩, hi⟩⟩
        · rintro ⟨i, hi⟩
          cases i with
          | zero =>
            rw [firstUnconvertible_zero, hc] at hi
            cases hi
          | succ i => simp [htail.2 ⟨i, (firstUnconvertible_succ.1 hi).2⟩, Except.map]

theorem Convertible.convertArguments {params : List Param} {args : List Value}
    (h : Convertible params args) : ∃ vs, convertArguments params args = .ok vs := by
  cases hconvert : MiniLisp.convertArguments params args with
  | ok vs => exact ⟨vs, rfl⟩
  | error c =>
    obtain ⟨i, hi⟩ := convertArguments_eq_error_iff.1 hconvert
    exact absurd h hi.not_convertible

theorem Converted.unique {params : List Param} {args vs ws : List Value}
    (hvs : Converted params args vs) (hws : Converted params args ws) : vs = ws := by
  apply List.ext_getElem?
  intro i
  cases ha : args[i]? with
  | none =>
    have hle := List.getElem?_eq_none_iff.1 ha
    rw [List.getElem?_eq_none (hvs.length ▸ hle), List.getElem?_eq_none (hws.length ▸ hle)]
  | some a =>
    obtain ⟨v, hv, hcoerce⟩ := hvs.coerce i a ha
    obtain ⟨w, hw, hcoerce'⟩ := hws.coerce i a ha
    rw [hv, hw, Except.ok.inj (hcoerce.symm.trans hcoerce')]

theorem Converted.convertArguments {params : List Param} {args vs : List Value}
    (h : Converted params args vs) : convertArguments params args = .ok vs := by
  obtain ⟨ws, hws⟩ := h.convertible.convertArguments
  rw [hws, h.unique (converted_of_convertArguments hws)]

theorem convertible_or_firstUnconvertible (params : List Param) (args : List Value) :
    Convertible params args ∨ ∃ i c, FirstUnconvertible params args i c := by
  cases hconvert : convertArguments params args with
  | ok vs => exact Or.inl (converted_of_convertArguments hconvert).convertible
  | error c =>
    obtain ⟨i, hi⟩ := convertArguments_eq_error_iff.1 hconvert
    exact Or.inr ⟨i, c, hi⟩

theorem suppliedArguments_any (names : List String) (args : List Value) :
    suppliedArguments (names.map fun p => ⟨p, .any, false⟩) args = .ok (names.zip args) := by
  induction names generalizing args with
  | nil => rfl
  | cons name names ih =>
    cases args with
    | nil => rfl
    | cons a args =>
      rw [List.map_cons, suppliedArguments, Value.coerce_any, ih]
      rfl

end MiniLisp
