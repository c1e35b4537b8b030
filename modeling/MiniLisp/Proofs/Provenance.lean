import MiniLisp.Proofs.Creation

/-! Where functions do not come from. What a text is read as holds none (`known_of_readForms`), nor does
what a builtin answers with (`Builtin.yields_run`), and conversion makes none; so a native function
passes on those of its arguments at most, or what an operation of the host is trusted with
(`Orderly.yields_operation`). -/

namespace MiniLisp

open Value

theorem exists_of_bind_eq_ok {ε α β : Type} {r : Except ε α} {f : α → Except ε β} {b : β}
    (h : (r >>= f) = .ok b) : ∃ a, r = .ok a ∧ f a = .ok b := by
  cases r with
  | ok a => exact ⟨a, rfl, h⟩
  | error err => cases h

namespace Op

variable {α : Type} {P : Value → Prop}

/-- Whatever value the operation ends with has the property. -/
def Yields (P : Value → Prop) (op : Op Value) : Prop := ∀ w v, (op w).1 = .ok v → P v

theorem yields_answer {v : Value} (h : P v) : Yields P (answer v) := by
  rintro w _ ⟨⟩
  exact h

theorem yields_ofExcept_bind {r : Except Cause α} {f : α → Op Value}
    (h : ∀ a, r = .ok a → Yields P (f a)) : Yields P (ofExcept r >>= f) := by
  cases r with
  | ok a => exact h a rfl
  | error c => rintro w v ⟨⟩

theorem Yields.mono {Q : Value → Prop} {op : Op Value} (h : Yields P op) (hPQ : ∀ v, P v → Q v) :
    Yields Q op := fun w v hv => hPQ v (h w v hv)

end Op

open Op

namespace Demand

variable {r : Type} {P : r → Prop}

/-- Whatever payloads the function is given, its result is as `P` says. -/
def Always (P : r → Prop) : (ds : List Demand) → Handler ds r → Prop
  | [], f => P f
  | _ :: ds, f => ∀ p, Always P ds (f p)

theorem of_feed {ds : List Demand} {f : Handler ds r} (h : Always P ds f) {args : List Value} {x : r}
    (hx : feed ds f args = .ok x) : P x := by
  induction ds generalizing args with
  | nil =>
    cases hx
    exact h
  | cons d ds ih =>
    obtain ⟨p, -, hx⟩ := exists_of_bind_eq_ok hx
    exact ih (h p) hx

end Demand

open Demand

theorem yields_adapt {P : Value → Prop} {ds : List Demand} {f : Handler ds (Op Value)}
    (h : Always (Yields P) ds f) (args : List Value) : Yields P (adapt ds f args) := by
  apply yields_ofExcept_bind
  intro _ _
  apply yields_ofExcept_bind
  intro run hrun
  exact of_feed h hrun

theorem yields_adaptRest {P : Value → Prop} {ds : List Demand} {rest : Item}
    {f : Handler ds (List rest.Payload → Op Value)} (h : Always (fun g => ∀ ps, Yields P (g ps)) ds f)
    (args : List Value) : Yields P (adaptRest ds rest f args) := by
  apply yields_ofExcept_bind
  intro _ _
  apply yields_ofExcept_bind
  intro g hg
  apply yields_ofExcept_bind
  intro ps _
  exact of_feed h hg ps

theorem known_of_coerce {made : List Value} {t : Ty} {v w : Value} (hv : v.Known made)
    (h : v.coerce t = .ok w) : w.Known made := by
  unfold coerce at h
  split at h
  · cases h
    exact hv
  · split at h
    · cases h
    · cases t <;> cases h <;> exact known_of_ty nofun nofun

theorem known_of_convertArguments {made : List Value} {params : List Param} {args vs : List Value}
    (hargs : ∀ a ∈ args, a.Known made) (h : convertArguments params args = .ok vs) :
    ∀ v ∈ vs, v.Known made := by
  fun_induction convertArguments params args generalizing vs with
  | case1 =>
    cases h
    exact hargs
  | case2 =>
    cases h
    exact hargs
  | case3 p ps a args ih =>
    obtain ⟨w, hw, h⟩ := exists_of_bind_eq_ok h
    obtain ⟨ws, hws, h⟩ := exists_of_bind_eq_ok h
    cases h
    obtain ⟨ha, hrest⟩ := List.forall_mem_cons.1 hargs
    exact List.forall_mem_cons.2 ⟨known_of_coerce ha hw, ih hrest hws⟩

theorem known_of_bindArguments {made : List Value} {params : List Param} {args vs : List Value}
    (hargs : ∀ a ∈ args, a.Known made) (h : bindArguments params args = .ok vs) :
    ∀ v ∈ vs, v.Known made := by
  obtain ⟨_, -, h⟩ := exists_of_bind_eq_ok h
  exact known_of_convertArguments hargs h

theorem known_of_suppliedArguments {made : List Value} {params : List Param} {args : List Value}
    {bindings : List (String × Value)} (hargs : ∀ a ∈ args, a.Known made)
    (h : suppliedArguments params args = .ok bindings) : ∀ e ∈ bindings, e.2.Known made := by
  fun_induction suppliedArguments params args generalizing bindings with
  | case1 p ps a args ih =>
    obtain ⟨w, hw, h⟩ := exists_of_bind_eq_ok h
    obtain ⟨bs, hbs, h⟩ := exists_of_bind_eq_ok h
    cases h
    obtain ⟨ha, hrest⟩ := List.forall_mem_cons.1 hargs
    exact List.forall_mem_cons.2 ⟨known_of_coerce ha hw, ih hrest hbs⟩
  | case2 =>
    cases h
    simp

namespace Builtin

theorem yields_repeated (s : String) (times : Float) : Yields (Known []) (repeated s times) := by
  unfold repeated
  split
  · exact yields_answer (known_of_ty nofun nofun)
  · split
    · rintro w v ⟨⟩
    · dsimp only
      split
      · exact yields_answer (known_of_ty nofun nofun)
      · rintro w v ⟨⟩

theorem yields_docOf (v : Value) : Yields (Known []) (docOf v) := by
  unfold docOf
  split
  iterate 3 exact yields_answer (known_of_ty nofun nofun)
  rintro w v ⟨⟩

end Builtin

/-! What is read. -/

theorem known_of_atom {g : Glyph} {gs : List Glyph} {v : Value}
    (h : (Token.ofGlyphs g gs).1.lexeme = .atom v) : v.Known [] := by
  unfold Token.ofGlyphs Token.ofString at h
  repeat' split at h
  all_goals
    cases h
    try exact known_of_ty nofun nofun

theorem eq_ofGlyphs_of_scan {comments : Bool} {g : Glyph} {gs : List Glyph} {t : Token}
    (h : (Token.scan comments g gs).1 = some t) : t = (Token.ofGlyphs g gs).1 := by
  unfold Token.scan at h
  split at h
  · cases h
  · split at h
    · cases h
    · exact (Option.some.inj h).symm

theorem known_of_mem_all {comments : Bool} {gs : List Glyph} {t : Token} {v : Value}
    (ht : t ∈ Token.all comments gs) (hv : t.lexeme = .atom v) : v.Known [] := by
  fun_induction Token.all comments gs with
  | case1 => simp at ht
  | case2 g gs ih =>
    obtain ht | ht := List.mem_append.1 ht
    · rw [eq_ofGlyphs_of_scan (Option.mem_toList.1 ht)] at hv
      exact known_of_atom hv
    · exact ih ht

namespace Reading

def Plain (r : Reading) : Prop :=
  (∀ v ∈ r.forms, v.Known []) ∧ ∀ f ∈ r.frames, ∀ v ∈ f.before, v.Known []

theorem plain_feed {nesting : Nat} {r r' : Reading} {t : Token} (hr : r.Plain)
    (ht : ∀ v, t.lexeme = .atom v → v.Known []) (h : r.feed nesting t = .ok r') : r'.Plain := by
  obtain ⟨hforms, hframes⟩ := hr
  unfold feed at h
  split at h
  · rename_i v hv
    cases h
    exact ⟨List.forall_mem_cons.2 ⟨ht v hv, hforms⟩, hframes⟩
  · cases h
  · split at h
    · cases h
    · cases h
      exact ⟨by simp, List.forall_mem_cons.2 ⟨hforms, hframes⟩⟩
  · split at h
    · cases h
    · rename_i f fs hfs
      cases h
      rw [hfs, List.forall_mem_cons] at hframes
      have hlist : (Value.list r.forms.reverse f.quoted (some f.opened)).Known [] :=
        known_list.2 fun v hv => hforms v (List.mem_reverse.1 hv)
      exact ⟨List.forall_mem_cons.2 ⟨hlist, hframes.1⟩, hframes.2⟩

theorem plain_feedAll {nesting : Nat} {ts : List Token} {r r' : Reading} (hr : r.Plain)
    (hts : ∀ t ∈ ts, ∀ v, t.lexeme = .atom v → v.Known []) (h : feedAll nesting r ts = .ok r') :
    r'.Plain := by
  induction ts generalizing r with
  | nil =>
    cases h
    exact hr
  | cons t ts ih =>
    obtain ⟨ht, hts⟩ := List.forall_mem_cons.1 hts
    rw [feedAll] at h
    split at h
    · rename_i r₁ hr₁
      exact ih (plain_feed hr ht hr₁) hts h
    · cases h

end Reading

theorem known_of_readForms {config : ReaderConfig} {source : String} {es : List Value}
    (h : readForms config source = .ok es) : ∀ e ∈ es, e.Known [] := by
  unfold readForms formsOfTokens at h
  split at h
  · rename_i r hr
    have hplain : r.Plain :=
      Reading.plain_feedAll ⟨by simp, by simp⟩ (fun t ht v hv => known_of_mem_all ht hv) hr
    unfold Reading.finish at h
    split at h
    · cases h
      exact fun e he => hplain.1 e (List.mem_reverse.1 he)
    · cases h
  · cases h

namespace Builtin

theorem known_firstForm (s : String) : (firstForm s).Known [] := by
  unfold firstForm
  split
  · rename_i h
    exact known_of_readForms h _ List.mem_cons_self
  · exact known_of_ty nofun nofun

theorem yields_operation (b : Builtin) (args : List Value) :
    Yields (Known []) (b.operation args) := by
  cases b with
  | add | subtract | multiply | divide | conjunction | disjunction =>
    refine yields_adaptRest ?_ args
    exact fun _ _ => yields_answer (known_of_ty nofun nofun)
  | concat =>
    refine yields_adaptRest ?_ args
    exact fun _ => yields_answer (known_of_ty nofun nofun)
  | floorDivide | remainder | power | equal | greater | less | greaterEqual | lessEqual =>
    refine yields_adapt ?_ args
    exact fun _ _ => yields_answer (known_of_ty nofun nofun)
  | negation | lower | upper | length | source | typeName =>
    refine yields_adapt ?_ args
    exact fun _ => yields_answer (known_of_ty nofun nofun)
  | randomInteger =>
    refine yields_adapt ?_ args
    rintro least bound w v ⟨⟩
    exact known_of_ty nofun nofun
  | print | printLine =>
    refine yields_adapt ?_ args
    rintro s w v ⟨⟩
    exact known_of_ty nofun nofun
  | repetition =>
    refine yields_adapt ?_ args
    exact yields_repeated
  | read =>
    refine yields_adapt ?_ args
    exact fun s => yields_answer (known_firstForm s)
  | documentation =>
    refine yields_adapt ?_ args
    exact yields_docOf

theorem yields_run (b : Builtin) (args : List Value) :
    Yields (Known []) (b.definition.run args) := by
  unfold definition
  split
  · exact yields_ofExcept_bind fun _ _ => yields_operation b args
  · exact yields_operation b args

end Builtin

theorem Orderly.yields_operation {m : Machine} {made : List Value} (ho : Orderly m made) (n : Native)
    {args : List Value} (hargs : ∀ a ∈ args, a.Known made) :
    Yields (Known made) (m.operation n args) := by
  cases n with
  | builtin b => exact (b.yields_run args).mono fun v hv => hv.mono List.nil_suffix
  | host slot =>
    change Yields _ ((m.hostOperations[slot]?.getD fun _ => answer .nil) args)
    cases hop : m.hostOperations[slot]? with
    | none => exact yields_answer (known_of_ty nofun nofun)
    | some op =>
      intro w v hv f hf
      obtain ⟨a, ha, hf⟩ | hf := ho.operations op (Array.mem_of_getElem? hop) args w v f hv hf
      · exact hargs a ha f hf
      · exact hf

end MiniLisp
