import MiniLisp.Proofs.Builtins
import MiniLisp.Proofs.Erasure

/-! Operations that do not see positions. On values that differ in positions at most, such an operation
ends with values that differ in no more, or with errors that say the same, and it prints and draws the
same (`Blind`). Adapting keeps a typed function blind if the function treats similar payloads alike, and
all builtins are made that way. -/

namespace MiniLisp

open Value

/-- What an error says: its kind and its message, not where it arose. -/
def Cause.said (c : Cause) : ErrorKind × String := (c.kind, c.message)

theorem Cause.said_of_bare {c c' : Cause} (h : c.bare = c'.bare) : c.said = c'.said := by
  rw [said, said, ← kind_bare c, ← message_bare c, h, kind_bare, message_bare]

/-- Two outcomes agree: both are values, related by `R`, or both are errors that say the same. -/
inductive Agree {ε κ α : Type} (said : ε → κ) (R : α → α → Prop) : Except ε α → Except ε α → Prop
  | ok {a a' : α} : R a a' → Agree said R (.ok a) (.ok a')
  | error {err err' : ε} : said err = said err' → Agree said R (.error err) (.error err')

theorem Agree.refl {ε κ α : Type} {said : ε → κ} {R : α → α → Prop} (hR : ∀ a, R a a)
    (r : Except ε α) : Agree said R r r := by
  cases r with
  | ok a => exact .ok (hR a)
  | error err => exact .error rfl

theorem Agree.bind {ε κ α β : Type} {said : ε → κ} {R : α → α → Prop} {S : β → β → Prop}
    {r r' : Except ε α} {f f' : α → Except ε β} (h : Agree said R r r')
    (hf : ∀ a a', R a a' → Agree said S (f a) (f' a')) : Agree said S (r >>= f) (r' >>= f') := by
  cases h with
  | ok ha => exact hf _ _ ha
  | error herr => exact .error herr

/-! Arguments. -/

theorem agree_coerce {v w : Value} (h : Similar v w) (t : Ty) :
    Agree Cause.said Similar (v.coerce t) (w.coerce t) := by
  have hname : v.isName = w.isName := by cases h.paired <;> rfl
  have htruth : v.truth = w.truth := by cases h.paired <;> rfl
  have hnumeric : v.numeric = w.numeric := by cases h.paired <;> rfl
  have htextual : v.textual = w.textual := by cases h.paired <;> rfl
  unfold coerce
  rw [h.ty, hname, htruth, hnumeric, htextual]
  split_ifs
  · exact .ok h
  · exact .error (Cause.said_of_bare (congrArg (Cause.unconvertible · t) h))
  · cases t with
    | bool | number | string => exact .ok rfl
    | _ => exact .error (Cause.said_of_bare (congrArg (Cause.wrongType · _) h))

theorem agree_convertArguments {args args' : List Value} (h : List.Forall₂ Similar args args')
    (params : List Param) :
    Agree Cause.said (List.Forall₂ Similar) (convertArguments params args)
      (convertArguments params args') := by
  induction h generalizing params with
  | nil =>
    rw [convertArguments_nil_right]
    exact .ok .nil
  | @cons a a' args args' ha hargs ih =>
    cases params with
    | nil => exact .ok (.cons ha hargs)
    | cons p ps =>
      rw [convertArguments, convertArguments]
      refine (agree_coerce ha p.ty).bind fun v v' hv => ?_
      exact (ih _).bind fun vs vs' hvs => .ok (.cons hv hvs)

theorem agree_bindArguments {args args' : List Value} (h : List.Forall₂ Similar args args')
    (params : List Param) :
    Agree Cause.said (List.Forall₂ Similar) (bindArguments params args)
      (bindArguments params args') := by
  unfold bindArguments
  rw [h.length_eq]
  refine (Agree.refl (fun _ => rfl) _).bind fun _ _ (_ : () = ()) => ?_
  exact agree_convertArguments h params

theorem agree_suppliedArguments {args args' : List Value} (h : List.Forall₂ Similar args args')
    (params : List Param) :
    Agree Cause.said (fun bs bs' => bs.map (Bindings.mapEntry bare) = bs'.map (Bindings.mapEntry bare))
      (suppliedArguments params args) (suppliedArguments params args') := by
  induction h generalizing params with
  | nil => cases params <;> exact .ok rfl
  | @cons a a' args args' ha hargs ih =>
    cases params with
    | nil => exact .ok rfl
    | cons p ps =>
      rw [suppliedArguments, suppliedArguments]
      refine (agree_coerce ha p.ty).bind fun v v' hv => ?_
      exact (ih ps).bind fun bs bs' hbs => .ok (congrArg₂ (fun v bs => (p.name, v) :: bs) hv hbs)

/-! Payloads. -/

def Item.Same : (i : Item) → i.Payload → i.Payload → Prop
  | .any, v, w => Similar v w
  | .number, x, y => x = y
  | .bool, x, y => x = y
  | .text, x, y => x = y

theorem said_wrongArgument {wanted : Ty} {v w : Value} (h : Similar v w) :
    (Cause.wrongArgument wanted v).said = (Cause.wrongArgument wanted w).said :=
  Cause.said_of_bare (congrArg (Cause.wrongArgument wanted) h)

theorem Item.agree_extract (i : Item) {v w : Value} (h : Similar v w) :
    Agree Cause.said i.Same (i.extract v) (i.extract w) := by
  cases i with
  | any => exact .ok h
  | number =>
    cases h.paired with
    | number x => exact .ok rfl
    | _ => exact .error (said_wrongArgument h)
  | bool =>
    cases h.paired with
    | bool b => exact .ok rfl
    | _ => exact .error (said_wrongArgument h)
  | text =>
    cases h.paired with
    | string s => exact .ok rfl
    | _ => exact .error (said_wrongArgument h)

theorem Item.agree_extractAll (i : Item) {vs ws : List Value} (h : List.Forall₂ Similar vs ws) :
    Agree Cause.said (List.Forall₂ i.Same) (i.extractAll vs) (i.extractAll ws) := by
  induction h with
  | nil => exact .ok .nil
  | cons hv _ ih =>
    rw [extractAll_cons, extractAll_cons]
    refine (i.agree_extract hv).bind fun p q hp => ?_
    exact ih.bind fun ps qs hps => .ok (.cons hp hps)

namespace Demand

def Same : (d : Demand) → d.Payload → d.Payload → Prop
  | one i => i.Same
  | listOf i => List.Forall₂ i.Same

theorem agree_extract (d : Demand) {v w : Value} (h : Similar v w) :
    Agree Cause.said d.Same (d.extract v) (d.extract w) := by
  cases d with
  | one i => exact i.agree_extract h
  | listOf i =>
    cases h.paired with
    | list _ _ _ hitems => exact i.agree_extractAll hitems
    | _ => exact .error (said_wrongArgument h)

variable {r : Type} {R : r → r → Prop}

/-- The functions send payloads that are the same to results related by `R`. -/
def Respects (R : r → r → Prop) : (ds : List Demand) → Handler ds r → Handler ds r → Prop
  | [], f, g => R f g
  | d :: ds, f, g => ∀ p q, d.Same p q → Respects R ds (f p) (g q)

/-- Demands the payload of which holds no value. -/
def Plain (d : Demand) : Prop := ∃ i, d = .one i ∧ i ≠ .any

theorem Plain.eq_of_same {d : Demand} (h : d.Plain) {p q : d.Payload} (hpq : d.Same p q) : p = q := by
  obtain ⟨i, rfl, hi⟩ := h
  cases i with
  | any => exact absurd rfl hi
  | number | bool | text => exact hpq

theorem respects_refl (hR : ∀ x, R x x) {ds : List Demand} (h : ∀ d ∈ ds, d.Plain)
    (f : Handler ds r) : Respects R ds f f := by
  induction ds with
  | nil => exact hR f
  | cons d ds ih =>
    intro p q hpq
    obtain rfl := (h d List.mem_cons_self).eq_of_same hpq
    exact ih (fun d hd => h d (List.mem_cons_of_mem _ hd)) (f p)

theorem agree_feed {ds : List Demand} {f g : Handler ds r} (h : Respects R ds f g)
    {args args' : List Value} (hargs : List.Forall₂ Similar args args') :
    Agree Cause.said R (feed ds f args) (feed ds g args') := by
  induction ds generalizing args args' with
  | nil => exact .ok h
  | cons d ds ih =>
    have hhead : Similar (args.headD .nil) (args'.headD .nil) := by
      cases hargs with
      | nil => rfl
      | cons ha _ => exact ha
    have htail : List.Forall₂ Similar args.tail args'.tail := by
      cases hargs with
      | nil => exact .nil
      | cons _ ht => exact ht
    rw [feed, feed]
    exact (d.agree_extract hhead).bind fun p q hpq => ih (h p q hpq) htail

end Demand

open Demand

/-! Operations. -/

def Op.Agrees {α : Type} (R : α → α → Prop) (op op' : Op α) : Prop :=
  ∀ w, Agree Cause.said R (op w).1 (op' w).1 ∧ (op w).2 = (op' w).2

/-- The operation does not see positions. -/
def Blind (op : Operation) : Prop :=
  ∀ args args', List.Forall₂ Similar args args' → Op.Agrees Similar (op args) (op args')

theorem Op.agrees_refl (op : Op Value) : Op.Agrees Similar op op := fun w =>
  ⟨Agree.refl (R := Similar) (fun _ => rfl) (op w).1, rfl⟩

theorem Op.agrees_bind {α β : Type} {R : α → α → Prop} {S : β → β → Prop} {r r' : Except Cause α}
    {f f' : α → Op β} (h : Agree Cause.said R r r') (hf : ∀ a a', R a a' → Op.Agrees S (f a) (f' a')) :
    Op.Agrees S (Op.ofExcept r >>= f) (Op.ofExcept r' >>= f') := by
  cases h with
  | ok ha => exact hf _ _ ha
  | error hc => exact fun w => ⟨.error hc, rfl⟩

theorem Op.agrees_count {α : Type} {R : α → α → Prop} (count : Nat → Except Cause Unit)
    {args args' : List Value} (h : List.Forall₂ Similar args args') {op op' : Op α}
    (hop : Op.Agrees R op op') :
    Op.Agrees R (Op.ofExcept (count args.length) >>= fun _ => op)
      (Op.ofExcept (count args'.length) >>= fun _ => op') := by
  rw [h.length_eq]
  exact Op.agrees_bind (Agree.refl (fun _ => rfl) _) fun _ _ (_ : () = ()) => hop

theorem blind_adapt {ds : List Demand} {f : Handler ds (Op Value)}
    (h : Respects (Op.Agrees Similar) ds f f) : Blind (adapt ds f) := by
  intro args args' hargs
  refine Op.agrees_count (countAdapted _) hargs ?_
  exact Op.agrees_bind (agree_feed h hargs) fun _ _ hrun => hrun

theorem blind_adaptRest {ds : List Demand} {rest : Item}
    {f : Handler ds (List rest.Payload → Op Value)}
    (h : Respects (fun g g' => ∀ ps ps', List.Forall₂ rest.Same ps ps' →
      Op.Agrees Similar (g ps) (g' ps')) ds f f) : Blind (adaptRest ds rest f) := by
  intro args args' hargs
  refine Op.agrees_count (countAdapted _) hargs ?_
  refine Op.agrees_bind (agree_feed h hargs) fun g g' hg => ?_
  refine Op.agrees_bind (rest.agree_extractAll ?_) hg
  exact List.forall₂_drop _ hargs

theorem blind_adapt_of_plain {ds : List Demand} (h : ∀ d ∈ ds, d.Plain) (f : Handler ds (Op Value)) :
    Blind (adapt ds f) :=
  blind_adapt (respects_refl Op.agrees_refl h f)

theorem blind_adaptRest_of_plain {ds : List Demand} (h : ∀ d ∈ ds, d.Plain) {rest : Item}
    (hrest : rest ≠ .any) (f : Handler ds (List rest.Payload → Op Value)) :
    Blind (adaptRest ds rest f) := by
  refine blind_adaptRest (respects_refl ?_ h f)
  intro g ps ps' hps
  have hsame : ∀ p q, rest.Same p q → p = q := fun p q hpq =>
    Plain.eq_of_same (d := .one rest) ⟨rest, rfl, hrest⟩ hpq
  obtain rfl : ps = ps' := List.forall₂_eq_eq_eq ▸ hps.imp hsame
  exact Op.agrees_refl _

namespace Builtin

theorem blind_ofValue {f : Value → String} (h : ∀ v w, Similar v w → f v = f w) : Blind (ofValue f) := by
  refine blind_adapt fun v w hvw => ?_
  change Op.Agrees Similar (Op.answer (.string (f v))) (Op.answer (.string (f w)))
  rw [h v w hvw]
  exact Op.agrees_refl _

theorem agrees_docOf {v w : Value} (h : Similar v w) : Op.Agrees Similar (docOf v) (docOf w) := by
  have hundocumented : (Cause.undocumented v).said = (Cause.undocumented w).said :=
    Cause.said_of_bare (congrArg Cause.undocumented h)
  intro world
  cases h.paired with
  | native | lambda | special => exact ⟨.ok rfl, rfl⟩
  | _ => exact ⟨.error hundocumented, rfl⟩

theorem blind_operation (b : Builtin) : Blind b.operation := by
  cases b with
  | add | subtract | multiply | divide | conjunction | disjunction | concat =>
    exact blind_adaptRest_of_plain (by simp [Plain]) (by simp) _
  | source => exact blind_ofValue fun _ _ h => h.code
  | typeName => exact blind_ofValue fun _ _ h => by rw [h.ty]
  | documentation => exact blind_adapt fun _ _ h => agrees_docOf h
  | _ => exact blind_adapt_of_plain (by simp [Plain]) _

theorem blind_run (b : Builtin) : Blind b.definition.run := by
  cases hleast : b.leastOperands? with
  | none =>
    rw [run_of_fixed hleast]
    exact b.blind_operation
  | some n =>
    intro args args' hargs
    rw [run_of_variadic hleast, run_of_variadic hleast]
    exact Op.agrees_count (Arity.check _) hargs (b.blind_operation args args' hargs)

end Builtin

def lineOf : Value → Value
  | .list _ _ (some p) => .number (Float.ofNat p.line)
  | _ => .nil

/-- A function of the host that is not blind. -/
def lineFunction : Definition :=
  .hostFixed "line-of" [("items", .list)] (adapt [.one .any] fun v => Op.answer (lineOf v))

end MiniLisp
