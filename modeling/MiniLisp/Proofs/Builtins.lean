import MiniLisp.Proofs.Adapter
import MiniLisp.Proofs.Execution

/-! Soundness of the table of builtins. A builtin declares how many arguments it takes, their types and
the type of its result; what it does is a typed function behind an adapter that checks again. The two
agree for each of them: a call fails for the declared count, else for the first argument that cannot be
converted, and else it ends with a value of the declared type, but for a repetition that would not
end. What the adapter or the function itself would complain about is never met. -/

namespace MiniLisp

def Error.kind? : Error → Option ErrorKind
  | running e => some e.cause.kind
  | _ => none

/-- Complaints of an adapter and of a typed function about arguments that the checks before should have
kept from them. -/
def Cause.FromWithin : Cause → Prop
  | adapterCount .. | wrongArgument .. | unreachable _ | undocumented _ => True
  | _ => False

namespace Builtin

/-- The complaint about a count of repetitions. -/
def Refusal (c : Cause) : Prop :=
  (∃ times, c = .repeatCount times ∨ c = .repeatSize times) ∧
    c.kind = .evaluation ∧ ∃ rest, c.message = "Invalid repeat count: " ++ rest

/-- The operation ends with a value of the declared type; only a repetition may refuse its count. -/
def EndsWell (b : Builtin) (op : Op Value) : Prop :=
  ∀ w, (∃ v, (op w).1 = .ok v ∧ v.Fits b.returns) ∨
    b = .repetition ∧ ∃ c, (op w).1 = .error c ∧ Refusal c

theorem endsWell_answer {b : Builtin} {v : Value} (h : v.Fits b.returns) : b.EndsWell (Op.answer v) :=
  fun _ => Or.inl ⟨v, rfl, h⟩

theorem endsWell_randomBetween (least bound : Float) :
    randomInteger.EndsWell (randomBetween least bound) :=
  fun _ => Or.inl ⟨_, rfl, Or.inr rfl⟩

theorem endsWell_printed {b : Builtin} (h : b.returns = .nil) (ending s : String) :
    b.EndsWell (printed ending s) :=
  fun _ => Or.inl ⟨.nil, rfl, Or.inr h.symm⟩

theorem refusal_repeatCount (times : Float) : Refusal (.repeatCount times) :=
  ⟨⟨times, Or.inl rfl⟩, rfl, Number.countText times, rfl⟩

theorem append_starts (a b c d e : String) : ∃ rest, a ++ b ++ c ++ d ++ e = a ++ rest :=
  ⟨b ++ (c ++ (d ++ e)), by simp only [String.append_assoc]⟩

theorem refusal_repeatSize (times : Float) : Refusal (.repeatSize times) :=
  ⟨⟨times, Or.inr rfl⟩, rfl, append_starts _ _ _ _ _⟩

theorem endsWell_repeated (s : String) (times : Float) : repetition.EndsWell (repeated s times) := by
  intro w
  unfold repeated
  split
  · exact Or.inl ⟨_, rfl, Or.inr rfl⟩
  · split
    · exact Or.inr ⟨rfl, _, rfl, refusal_repeatCount times⟩
    · dsimp only
      split
      · exact Or.inl ⟨_, rfl, Or.inr rfl⟩
      · exact Or.inr ⟨rfl, _, rfl, refusal_repeatSize times⟩

theorem endsWell_docOf {v : Value} (h : v.Fits .function) : documentation.EndsWell (docOf v) := by
  have hty : v.ty = .function := h.resolve_left (by decide)
  intro w
  cases v with
  | native h _ => exact Or.inl ⟨_, rfl, Or.inr rfl⟩
  | lambda h _ _ => exact Or.inl ⟨_, rfl, Or.inr rfl⟩
  | special f => exact Or.inl ⟨_, rfl, Or.inr rfl⟩
  | _ => cases hty

open Demand

theorem operation_of_fixed {b : Builtin} (h : b.leastOperands? = none) :
    ∃ (ds : List Demand) (f : Handler ds (Op Value)), b.operation = adapt ds f ∧
      Handles b.EndsWell (b.params.map Param.ty) ds f := by
  cases b with
  | floorDivide | remainder | power | equal | greater | less | greaterEqual | lessEqual =>
    exact ⟨_, _, rfl, handles_two .number .number fun _ _ => endsWell_answer (Or.inr rfl)⟩
  | randomInteger =>
    exact ⟨_, _, rfl, handles_two .number .number fun _ _ => endsWell_randomBetween _ _⟩
  | negation => exact ⟨_, _, rfl, handles_one .bool fun _ => endsWell_answer (Or.inr rfl)⟩
  | lower | upper | length =>
    exact ⟨_, _, rfl, handles_one .text fun _ => endsWell_answer (Or.inr rfl)⟩
  | read => exact ⟨_, _, rfl, handles_one .text fun _ => endsWell_answer (Or.inl rfl)⟩
  | source | typeName => exact ⟨_, _, rfl, handles_one .any fun _ => endsWell_answer (Or.inr rfl)⟩
  | repetition => exact ⟨_, _, rfl, handles_two .text .number endsWell_repeated⟩
  | print | printLine => exact ⟨_, _, rfl, handles_one .text (endsWell_printed rfl _)⟩
  | documentation => exact ⟨_, _, rfl, fun v hv => ⟨v, rfl, endsWell_docOf hv⟩⟩
  | _ => cases h

theorem operation_of_variadic {b : Builtin} {n : Nat} (h : b.leastOperands? = some n) :
    n ≤ 1 ∧ ∃ (i : Item) (f : Handler (List.replicate n (.one i)) (List i.Payload → Op Value)),
      b.params = [⟨"operands", i.ty, true⟩] ∧
      b.operation = adaptRest (List.replicate n (.one i)) i f ∧
      Handles (fun g => ∀ ps, b.EndsWell (g ps)) (List.replicate n i.ty)
        (List.replicate n (.one i)) f := by
  cases b with
  | add | subtract | multiply | divide =>
    cases h
    exact ⟨Nat.le_refl 1, .number, _, rfl, rfl,
      handles_one .number fun _ _ => endsWell_answer (Or.inr rfl)⟩
  | conjunction | disjunction =>
    cases h
    exact ⟨Nat.le_refl 1, .bool, _, rfl, rfl,
      handles_one .bool fun _ _ => endsWell_answer (Or.inr rfl)⟩
  | concat =>
    cases h
    exact ⟨Nat.zero_le 1, .text, _, rfl, rfl, fun _ => endsWell_answer (Or.inr rfl)⟩
  | _ => cases h

@[simp] theorem definition_params (b : Builtin) : b.definition.params = b.params := by
  unfold definition; split <;> rfl

@[simp] theorem definition_returns (b : Builtin) : b.definition.returns = b.returns := by
  unfold definition; split <;> rfl

section

variable {b : Builtin}

theorem arity_of_fixed (h : b.leastOperands? = none) :
    b.definition.arity = .exactly b.params.length := by
  unfold definition; rw [h]; rfl

theorem run_of_fixed (h : b.leastOperands? = none) : b.definition.run = b.operation := by
  unfold definition; rw [h]; rfl

theorem arity_of_variadic {n : Nat} (h : b.leastOperands? = some n) :
    b.definition.arity = .atLeast n := by
  unfold definition; rw [h]; rfl

theorem run_of_variadic {n : Nat} (h : b.leastOperands? = some n) (vs : List Value) :
    b.definition.run vs =
      (Op.ofExcept ((Arity.atLeast n).check vs.length) >>= fun _ => b.operation vs) := by
  unfold definition; rw [h]; rfl

theorem rest_of_fixed (h : b.leastOperands? = none) : ∀ p ∈ b.params, p.rest = false := by
  cases b <;> simp_all [leastOperands?, params]

end

end Builtin

theorem ofParams_of_fixed {params : List Param} (h : ∀ p ∈ params, p.rest = false) :
    Arity.ofParams params = .exactly params.length := by
  unfold Arity.ofParams
  cases hlast : params.getLast? with
  | none => simp [List.getLast?_eq_none_iff.1 hlast]
  | some p => simp [h p (List.mem_of_getLast? hlast)]

theorem bindArguments_of_admits {params : List Param} {args : List Value}
    (h : (Arity.ofParams params).admits args.length) :
    bindArguments params args = convertArguments params args := by
  unfold bindArguments
  rw [Arity.check_of_admits h]
  rfl

theorem bindArguments_of_not_admits {params : List Param} {args : List Value}
    (h : ¬ (Arity.ofParams params).admits args.length) :
    bindArguments params args =
      .error (.argumentCount (Arity.ofParams params) args.length) := by
  unfold bindArguments
  rw [Arity.check_of_not_admits h]
  rfl

theorem forall₂_fits {params : List Param} {vs : List Value} (hlen : vs.length = params.length)
    (h : ∀ (i : Nat) (v : Value), vs[i]? = some v → v.Fits (declaredTy params i)) :
    List.Forall₂ Value.Fits (params.map Param.ty) vs := by
  rw [List.forall₂_iff_get]
  refine ⟨by simp [hlen], ?_⟩
  intro i hi hi'
  have hfits := h i vs[i] (List.getElem?_eq_getElem hi')
  simp only [List.length_map] at hi
  simpa [declaredTy, hi] using hfits

theorem forall₂_fits_replicate {t : Ty} {vs : List Value} (h : ∀ v ∈ vs, v.Fits t) :
    List.Forall₂ Value.Fits (List.replicate vs.length t) vs := by
  induction vs with
  | nil => exact .nil
  | cons v vs ih =>
    exact .cons (h v List.mem_cons_self) (ih fun x hx => h x (List.mem_cons_of_mem v hx))

namespace Builtin

open Eval

/-- An operation that is given as many arguments as declared, all converted, ends well. -/
theorem operation_endsWell {b : Builtin} {args vs : List Value}
    (hcount : b.definition.arity.admits args.length) (h : Converted b.params args vs) :
    b.EndsWell (b.operation vs) := by
  rw [← h.length] at hcount
  cases hleast : b.leastOperands? with
  | none =>
    obtain ⟨ds, f, hop, hhandles⟩ := operation_of_fixed hleast
    rw [arity_of_fixed hleast] at hcount
    have hlen : vs.length = b.params.length := by simpa [Arity.admits] using hcount
    rw [hop]
    exact adapt_of_handles hhandles (forall₂_fits hlen fun _ _ hv => h.fits hv)
  | some n =>
    obtain ⟨-, i, f, hparams, hop, hhandles⟩ := operation_of_variadic hleast
    rw [arity_of_variadic hleast] at hcount
    have hlen : n ≤ vs.length := by simpa [Arity.admits] using hcount
    have hfits : ∀ v ∈ vs, v.Fits i.ty := by
      intro v hv
      obtain ⟨j, hj⟩ := List.mem_iff_getElem?.1 hv
      have hdeclared : declaredTy b.params j = i.ty := by
        rw [hparams]
        cases j <;> simp [declaredTy, Option.filter]
      exact hdeclared ▸ h.fits hj
    have hahead : List.Forall₂ Value.Fits (List.replicate n i.ty) (vs.take n) := by
      have hall := forall₂_fits_replicate fun v hv => hfits v (List.mem_of_mem_take (i := n) hv)
      rwa [List.length_take, Nat.min_eq_left hlen] at hall
    rw [hop, ← List.take_append_drop n vs]
    exact adaptRest_of_handles hhandles hahead fun v hv => hfits v (List.mem_of_mem_drop hv)

theorem exec_apply_toValue (b : Builtin) (serial : Nat) (args : List Value) (k : Level) (m : Machine) :
    exec (k.apply (b.toValue serial) args) m =
      match bindArguments b.params args with
      | .ok vs => exec (perform (b.definition.run vs)) m
      | .error c => (.error (.ofCause c), m) := by
  rw [← definition_params]
  exact exec_apply_native k (b.definition.header serial) (.builtin b) args m

section

variable {b : Builtin} {args : List Value} (serial : Nat) (k : Level) (m : Machine)

theorem bindArguments_of_variadic {n : Nat} (h : b.leastOperands? = some n) :
    bindArguments b.params args = convertArguments b.params args := by
  obtain ⟨-, i, f, hparams, -⟩ := operation_of_variadic h
  apply bindArguments_of_admits
  simp [hparams, Arity.ofParams, Arity.admits]

/-- A wrong number of arguments is the first thing a call fails for. With operands of any number the
count is checked after the conversions, but it is wrong only where there is nothing to convert. -/
theorem exec_apply_of_not_admits (h : ¬ b.definition.arity.admits args.length) :
    exec (k.apply (b.toValue serial) args) m =
      (.error (.ofCause (.argumentCount b.definition.arity args.length)), m) := by
  rw [exec_apply_toValue]
  cases hleast : b.leastOperands? with
  | none =>
    rw [arity_of_fixed hleast, ← ofParams_of_fixed (rest_of_fixed hleast)] at h ⊢
    rw [bindArguments_of_not_admits h]
  | some n =>
    have hn := (operation_of_variadic hleast).1
    rw [arity_of_variadic hleast] at h ⊢
    obtain rfl : args = [] := by
      apply List.eq_nil_of_length_eq_zero
      simp only [Arity.admits, decide_eq_true_eq] at h
      omega
    rw [bindArguments_of_variadic hleast, convertArguments_nil_right]
    simp only [run_of_variadic hleast, Arity.check_of_not_admits h]
    rfl

theorem exec_apply_of_admits (h : b.definition.arity.admits args.length) :
    exec (k.apply (b.toValue serial) args) m =
      match convertArguments b.params args with
      | .ok vs => exec (perform (b.operation vs)) m
      | .error c => (.error (.ofCause c), m) := by
  rw [exec_apply_toValue]
  cases hleast : b.leastOperands? with
  | none =>
    rw [arity_of_fixed hleast, ← ofParams_of_fixed (rest_of_fixed hleast)] at h
    rw [bindArguments_of_admits h, run_of_fixed hleast]
  | some n =>
    rw [arity_of_variadic hleast] at h
    rw [bindArguments_of_variadic hleast]
    cases hconvert : convertArguments b.params args with
    | error c => rfl
    | ok vs =>
      have hlen := (converted_of_convertArguments hconvert).length
      simp only [run_of_variadic hleast, hlen, Arity.check_of_admits h, Op.ofExcept_ok_bind]

theorem exec_apply_of_firstUnconvertible (h : b.definition.arity.admits args.length) {i : Nat}
    {c : Cause} (hfirst : FirstUnconvertible b.params args i c) :
    exec (k.apply (b.toValue serial) args) m = (.error (.ofCause c), m) := by
  rw [exec_apply_of_admits serial k m h, convertArguments_eq_error_iff.2 ⟨i, hfirst⟩]

theorem exec_apply_of_convertible (h : b.definition.arity.admits args.length)
    (hconv : Convertible b.params args) :
    (∃ v, (exec (k.apply (b.toValue serial) args) m).1 = .ok v ∧ v.Fits b.returns) ∨
      b = .repetition ∧
        ∃ c, (exec (k.apply (b.toValue serial) args) m).1 = .error (.ofCause c) ∧ Refusal c := by
  obtain ⟨vs, hvs⟩ := hconv.convertArguments
  have hends := operation_endsWell h (converted_of_convertArguments hvs) m.world
  rw [exec_apply_of_admits serial k m h, hvs]
  simp only [exec_perform]
  obtain ⟨v, hv, hfits⟩ | ⟨hb, c, hc, hrefusal⟩ := hends
  · exact Or.inl ⟨v, by rw [hv]; rfl, hfits⟩
  · exact Or.inr ⟨hb, c, by rw [hc]; rfl, hrefusal⟩

end

end Builtin

open Eval

theorem Builtin.Refusal.not_fromWithin {c : Cause} (h : Refusal c) : ¬ c.FromWithin := by
  obtain ⟨⟨times, rfl | rfl⟩, -⟩ := h
  · exact not_false
  · exact not_false

theorem FirstUnconvertible.kind_eq_and_not_fromWithin {params : List Param} {args : List Value} {i : Nat} {c : Cause}
    (h : FirstUnconvertible params args i c) : c.kind = .type ∧ ¬ c.FromWithin := by
  obtain ⟨a, -, hcoerce⟩ := h.here
  rcases Value.cause_of_coerce hcoerce with rfl | rfl
  · exact ⟨rfl, not_false⟩
  · exact ⟨rfl, not_false⟩

theorem exists_kind_iff {α : Type} {r : Except Error α} {c : Cause} (h : r = .error (.ofCause c))
    (kind : ErrorKind) : (∃ err, r = .error err ∧ err.kind? = some kind) ↔ c.kind = kind := by
  subst h
  constructor
  · rintro ⟨err, herr, hkind⟩
    cases herr
    exact Option.some.inj hkind
  · rintro rfl
    exact ⟨_, rfl, rfl⟩

/-- Soundness of the table. A call is refused for the count of its arguments, else for the first that
cannot be converted to its declared type, and else ends with a value of the declared result type, unless a
repetition refuses its count. No check behind these is ever the one that fails. -/
theorem builtin_call_sound (b : Builtin) (serial : Nat) (args : List Value) (k : Level) (m : Machine) :
    let d := b.definition
    let r := exec (k.apply (b.toValue serial) args) m
    ((∃ err, r.1 = .error err ∧ err.kind? = some .arity) ↔ ¬ d.arity.admits args.length) ∧
    (¬ d.arity.admits args.length →
      r = (.error (.ofCause (.argumentCount d.arity args.length)), m)) ∧
    (d.arity.admits args.length →
      ((∃ err, r.1 = .error err ∧ err.kind? = some .type) ↔ ¬ Convertible d.params args) ∧
      (∀ i c, FirstUnconvertible d.params args i c → r = (.error (.ofCause c), m)) ∧
      (Convertible d.params args →
        (∃ v, r.1 = .ok v ∧ v.Fits d.returns) ∨
          b = .repetition ∧ ∃ c, r.1 = .error (.ofCause c) ∧ Builtin.Refusal c)) ∧
    ∀ c, r.1 = .error (.ofCause c) → ¬ c.FromWithin := by
  intro d r
  rw [Builtin.definition_params, Builtin.definition_returns]
  by_cases hcount : d.arity.admits args.length
  · obtain hconv | ⟨i, c, hfirst⟩ := convertible_or_firstUnconvertible b.params args
    · have hends := Builtin.exec_apply_of_convertible serial k m hcount hconv
      -- a value, or the one error that is neither of count nor of type
      have hother : ∀ kind, kind ≠ .evaluation →
          ¬ ∃ err, r.1 = .error err ∧ err.kind? = some kind := by
        intro kind hne
        obtain ⟨v, hv, -⟩ | ⟨-, c, hc, hrefusal⟩ := hends
        · rintro ⟨err, herr, -⟩
          cases hv.symm.trans herr
        · rw [exists_kind_iff hc, hrefusal.2.1]
          exact hne.symm
      refine ⟨?_, fun h => absurd hcount h, fun _ => ⟨?_, ?_, fun _ => hends⟩, ?_⟩
      · exact iff_of_false (hother .arity (by decide)) (not_not_intro hcount)
      · exact iff_of_false (hother .type (by decide)) (not_not_intro hconv)
      · intro i c hfirst
        exact absurd hconv hfirst.not_convertible
      · intro c hc
        obtain ⟨v, hv, -⟩ | ⟨-, c', hc', hrefusal⟩ := hends
        · cases hc.symm.trans hv
        · cases hc.symm.trans hc'
          exact hrefusal.not_fromWithin
    · have hr : r = (.error (.ofCause c), m) :=
        Builtin.exec_apply_of_firstUnconvertible serial k m hcount hfirst
      obtain ⟨hkind, hwithin⟩ := hfirst.kind_eq_and_not_fromWithin
      rw [hr, exists_kind_iff rfl, exists_kind_iff rfl, hkind]
      refine ⟨?_, fun h => absurd hcount h, fun _ => ⟨?_, ?_, ?_⟩, ?_⟩
      · exact iff_of_false (by decide) (not_not_intro hcount)
      · exact iff_of_true rfl hfirst.not_convertible
      · intro i' c' hfirst'
        rw [← hr]
        exact Builtin.exec_apply_of_firstUnconvertible serial k m hcount hfirst'
      · intro hconv
        exact absurd hconv hfirst.not_convertible
      · rintro c' ⟨⟩
        exact hwithin
  · have hr : r = (.error (.ofCause (.argumentCount d.arity args.length)), m) :=
      Builtin.exec_apply_of_not_admits serial k m hcount
    refine ⟨?_, fun _ => hr, fun h => absurd h hcount, ?_⟩
    · rw [hr, exists_kind_iff rfl]
      exact iff_of_true rfl hcount
    · rw [hr]
      rintro c ⟨⟩
      exact not_false

end MiniLisp
