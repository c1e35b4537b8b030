import MiniLisp.Proofs.Session

/-! Evaluation writes to the global scope only. Every scope but the global one is afterwards as it was
before, in the same place, be it a scope entered and not left, that of a caller or what a function
captured; the builtins and the settings of the reader are the same; and a name once bound globally
stays bound, though its value may be another. All of it is read off the changes that an evaluation is
made of, and holds however the evaluation ends. -/

namespace MiniLisp

namespace Store

variable (s : Store)

/-- The scope itself binds the name. -/
def Binds (id : ScopeId) (name : String) : Prop := ((s.get id).bindings.get? name).isSome

instance (id : ScopeId) (name : String) : Decidable (s.Binds id name) :=
  inferInstanceAs (Decidable (_ = true))

theorem get_fresh : s.get s.fresh = {} := by
  simp [get, fresh]

theorem binds_add (scope : Scope) {id : ScopeId} {name : String} (h : s.Binds id name) :
    (s.add scope).Binds id name := by
  unfold Binds at h ⊢
  rw [get_add]
  split
  · rename_i hid
    rw [hid, get_fresh] at h
    simp at h
  · exact h

theorem binds_define (target : ScopeId) (n : String) (v : Value) {id : ScopeId} {name : String}
    (h : s.Binds id name) : (s.define target n v).Binds id name := by
  unfold Binds at h ⊢
  rw [get_define]
  split
  · rw [Bindings.get?_insert]
    split
    · rfl
    · exact h
  · exact h

end Store

/-- What an evaluation leaves alone on the machine it starts on. -/
structure Framed (m m' : Machine) : Prop extends Grows m m' where
  builtins : m'.builtins = m.builtins
  hostOperations : m'.hostOperations = m.hostOperations
  config : m'.config = m.config
  binds : ∀ name, m.store.Binds m.global name → m'.store.Binds m'.global name

theorem Framed.refl (m : Machine) : Framed m m := ⟨Grows.refl m, rfl, rfl, rfl, fun _ h => h⟩

theorem Framed.trans {m m' m'' : Machine} (h : Framed m m') (h' : Framed m' m'') : Framed m m'' where
  toGrows := h.toGrows.trans h'.toGrows
  builtins := h'.builtins.trans h.builtins
  hostOperations := h'.hostOperations.trans h.hostOperations
  config := h'.config.trans h.config
  binds name hname := h'.binds name (h.binds name hname)

theorem framed_change {m m' : Machine} (h : Change m m') : Framed m m' := by
  have hgrows := grows_change h
  cases h with
  | define n v => exact ⟨hgrows, rfl, rfl, rfl, fun _ h => m.store.binds_define _ n v h⟩
  | defineFunction n params body =>
    refine ⟨hgrows, rfl, rfl, rfl, ?_⟩
    intro name hname
    exact (m.store.addRoot (m.captured n)).binds_define _ n _ (m.store.binds_add _ hname)
  | enter bindings => exact ⟨hgrows, rfl, rfl, rfl, fun _ h => m.store.binds_add _ h⟩
  | move id => exact ⟨hgrows, rfl, rfl, rfl, fun _ h => h⟩
  | perform w => exact ⟨hgrows, rfl, rfl, rfl, fun _ h => h⟩

theorem framed_evolves {m m' : Machine} (h : Evolves m m') : Framed m m' := by
  induction h with
  | refl => exact Framed.refl m
  | tail _ hc ih => exact ih.trans (framed_change hc)

open Eval

/-- Evaluation writes only the global scope, on every machine, with any number of levels left, and however
it ends. Operations act on their arguments and the world alone, as `Op` has it: one that binds a name in a
scope which it reaches through a function is not among them. -/
theorem evaluation_framed (m : Machine) (depth : Nat) :
    (∀ e, Framed m (exec ((Level.ofDepth depth).expr e) m).2) ∧
    (∀ items, Framed m (exec ((Level.ofDepth depth).call items) m).2) ∧
    (∀ v, Framed m (exec ((Level.ofDepth depth).body v) m).2) ∧
    (∀ f args, Framed m (exec ((Level.ofDepth depth).apply f args) m).2) ∧
    (∀ form operands, Framed m (exec ((Level.ofDepth depth).special form operands) m).2) ∧
    ∀ source, Framed m (exec (Eval.program source) m).2 := by
  have hk := Level.balanced_ofDepth depth
  refine ⟨?_, ?_, ?_, ?_, ?_, ?_⟩
  · intro e
    exact framed_evolves (hk.expr e m).evolves
  · intro items
    exact framed_evolves (hk.call items m).evolves
  · intro v
    exact framed_evolves (Level.balanced_body hk v m).evolves
  · intro f args
    exact framed_evolves (Level.balanced_apply hk f args m).evolves
  · intro form operands
    exact framed_evolves (Level.balanced_special hk form operands m).evolves
  · intro source
    exact framed_evolves (balanced_program source m).evolves

end MiniLisp
