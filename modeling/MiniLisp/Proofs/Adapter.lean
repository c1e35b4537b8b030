import Mathlib.Data.List.Forall2
import MiniLisp.Operation.Adapter
import MiniLisp.Proofs.Conversion

/-! Adapted operations on arguments of the declared types. What passes the check of a list is projected
without complaint (`Item.extractAll_cons`). A typed function handles declared types if it takes its
payloads out of whatever values of these types it is given (`Demand.Handles`); then the adapted operation
neither counts wrong nor meets a value of another type, and does what the function does
(`adapt_of_handles`, `adaptRest_of_handles`). -/

namespace MiniLisp

theorem Arity.check_of_admits {expected : Arity} {got : Nat} (h : expected.admits got) :
    expected.check got = .ok () := if_pos h

theorem Arity.check_of_not_admits {expected : Arity} {got : Nat} (h : ¬ expected.admits got) :
    expected.check got = .error (.argumentCount expected got) := if_neg h

theorem Op.ofExcept_ok_bind {α β : Type} (a : α) (f : α → Op β) : (Op.ofExcept (.ok a) >>= f) = f a :=
  rfl

theorem countAdapted_of_admits {expected : Arity} {got : Nat} (h : expected.admits got) :
    countAdapted expected got = .ok () := if_pos h

theorem countAdapted_of_not_admits {expected : Arity} {got : Nat} (h : ¬ expected.admits got) :
    countAdapted expected got = .error (.adapterCount expected got) := if_neg h

theorem Item.extract_of_admits {i : Item} {v : Value} (h : i.admits v) :
    ∃ p, i.extract v = .ok p ∧ i.project v = .ok p := by
  cases i with
  | any => exact ⟨v, rfl, rfl⟩
  | number | bool | text =>
    cases v <;> first | exact ⟨_, rfl, rfl⟩ | cases h

theorem Item.extract_of_not_admits {i : Item} {v : Value} (h : i.admits v = false) :
    i.extract v = .error (.wrongArgument i.ty v) := by
  cases i with
  | any => cases h
  | number | bool | text =>
    cases v <;> first | rfl | cases h

/-- Checking all values first and taking the payloads out afterwards comes to taking them out in turn. -/
theorem Item.extractAll_cons (i : Item) (v : Value) (vs : List Value) :
    i.extractAll (v :: vs) = do
      let p ← i.extract v
      let ps ← i.extractAll vs
      return p :: ps := by
  cases hv : i.admits v with
  | false =>
    have hcheck : i.precheck (v :: vs) = .error (.wrongArgument i.ty v) := by simp [precheck, hv]
    rw [extractAll, hcheck, extract_of_not_admits hv]
    rfl
  | true =>
    obtain ⟨p, hextract, hproject⟩ := extract_of_admits hv
    have hcheck : i.precheck (v :: vs) = i.precheck vs := by simp [precheck, hv]
    rw [extractAll, hcheck, hextract, List.mapM_cons, hproject, extractAll]
    cases i.precheck vs <;> rfl

theorem Item.extract_of_fits {i : Item} {v : Value} (h : v.Fits i.ty) : ∃ p, i.extract v = .ok p := by
  cases i with
  | any => exact ⟨v, rfl⟩
  | number =>
    have hty : v.ty = .number := h.resolve_left (by decide)
    cases v with
    | number x => exact ⟨x, rfl⟩
    | _ => cases hty
  | bool =>
    have hty : v.ty = .bool := h.resolve_left (by decide)
    cases v with
    | bool b => exact ⟨b, rfl⟩
    | _ => cases hty
  | text =>
    have hty : v.ty = .string := h.resolve_left (by decide)
    cases v with
    | string s => exact ⟨s, rfl⟩
    | _ => cases hty

theorem Item.extractAll_of_fits {i : Item} {vs : List Value} (h : ∀ v ∈ vs, v.Fits i.ty) :
    ∃ ps, i.extractAll vs = .ok ps := by
  induction vs with
  | nil => exact ⟨[], rfl⟩
  | cons v vs ih =>
    obtain ⟨p, hp⟩ := Item.extract_of_fits (h v List.mem_cons_self)
    obtain ⟨ps, hps⟩ := ih fun x hx => h x (List.mem_cons_of_mem v hx)
    exact ⟨p :: ps, by rw [extractAll_cons, hp, hps]; rfl⟩

namespace Demand

variable {r : Type}

/-- Given values of the declared types, one for each demand, the function gets all its payloads and
its result is as `P` says. -/
def Handles (P : r → Prop) : List Ty → (ds : List Demand) → Handler ds r → Prop
  | [], [], f => P f
  | t :: ts, d :: ds, f => ∀ v : Value, v.Fits t → ∃ p, d.extract v = .ok p ∧ Handles P ts ds (f p)
  | _, _, _ => False

theorem handles_one {P : r → Prop} (i : Item) {f : i.Payload → r} (h : ∀ x, P (f x)) :
    Handles P [i.ty] [.one i] f := by
  intro v hv
  obtain ⟨x, hx⟩ := Item.extract_of_fits hv
  exact ⟨x, hx, h x⟩

theorem handles_two {P : r → Prop} (i j : Item) {f : i.Payload → j.Payload → r}
    (h : ∀ x y, P (f x y)) : Handles P [i.ty, j.ty] [.one i, .one j] f := by
  intro v hv
  obtain ⟨x, hx⟩ := Item.extract_of_fits hv
  exact ⟨x, hx, handles_one j (h x)⟩

theorem feed_of_handles {P : r → Prop} {ts : List Ty} {ds : List Demand} {f : Handler ds r}
    {vs : List Value} (h : Handles P ts ds f) (hvs : List.Forall₂ Value.Fits ts vs)
    (more : List Value) : ds.length = vs.length ∧ ∃ x, feed ds f (vs ++ more) = .ok x ∧ P x := by
  induction hvs generalizing ds with
  | nil =>
    cases ds with
    | nil => exact ⟨rfl, f, rfl, h⟩
    | cons => exact h.elim
  | @cons t v ts vs hv _ ih =>
    cases ds with
    | nil => exact h.elim
    | cons d ds =>
      obtain ⟨p, hp, hrest⟩ := h v hv
      obtain ⟨hlen, x, hx, hP⟩ := ih hrest
      refine ⟨by simp [hlen], x, ?_, hP⟩
      rw [List.cons_append, feed, List.headD_cons, hp]
      exact hx

end Demand

open Demand

theorem adapt_of_handles {P : Op Value → Prop} {ts : List Ty} {ds : List Demand}
    {f : Handler ds (Op Value)} {vs : List Value} (h : Handles P ts ds f)
    (hvs : List.Forall₂ Value.Fits ts vs) : P (adapt ds f vs) := by
  obtain ⟨hlen, x, hx, hP⟩ := feed_of_handles h hvs []
  rw [List.append_nil] at hx
  have hcount : (Arity.exactly ds.length).admits vs.length := by simp [Arity.admits, hlen]
  rw [adapt, countAdapted_of_admits hcount, Op.ofExcept_ok_bind, hx, Op.ofExcept_ok_bind]
  exact hP

theorem adaptRest_of_handles {P : Op Value → Prop} {ts : List Ty} {ds : List Demand} {rest : Item}
    {f : Handler ds (List rest.Payload → Op Value)} {vs more : List Value}
    (h : Handles (fun g => ∀ ps, P (g ps)) ts ds f) (hvs : List.Forall₂ Value.Fits ts vs)
    (hmore : ∀ v ∈ more, v.Fits rest.ty) : P (adaptRest ds rest f (vs ++ more)) := by
  obtain ⟨hlen, g, hg, hP⟩ := feed_of_handles h hvs more
  obtain ⟨ps, hps⟩ := Item.extractAll_of_fits hmore
  have hcount : (Arity.atLeast ds.length).admits (vs ++ more).length := by simp [Arity.admits, hlen]
  rw [adaptRest, countAdapted_of_admits hcount, Op.ofExcept_ok_bind, hg, Op.ofExcept_ok_bind,
    List.drop_left' hlen.symm, hps, Op.ofExcept_ok_bind]
  exact hP ps

end MiniLisp
