import MiniLisp.Proofs.Agreement
import MiniLisp.Proofs.Concatenation
import MiniLisp.Proofs.Frame

/-! One run or two. The forms of a text below another are those of the text alone, further down, so a
program of two parts is the forms of the first and then those of the second moved down; and evaluation
does not see where forms stand. What the first part does is therefore the same in both runs to the last
position, and what the second does is the same but for positions. -/

namespace MiniLisp

open Value

namespace Eval

theorem forms_append (last : Option Value) (es fs : List Value) :
    forms last (es ++ fs) = forms last es >>= fun last => forms last fs := by
  induction es generalizing last with
  | nil => rfl
  | cons e es ih =>
    rw [List.cons_append, forms, forms, bind_assoc]
    exact congrArg _ (funext fun v => ih (some v))

theorem agrees_forms {last last' : Option Value} (hlast : Option.Rel Similar last last')
    {es es' : List Value} (h : List.Forall₂ Similar es es') :
    Agrees (Option.Rel Similar) (forms last es) (forms last' es') := by
  induction h generalizing last last' with
  | nil => exact agrees_pure hlast
  | cons he _ ih =>
    exact agrees_bind ((Level.agrees_ofDepth maxDepth).expr he) fun v v' hv => ih (.some hv)

end Eval

open Eval

namespace Machine

theorem run_eq_exec {m : Machine} {source : String} {vs : List Value}
    (h : readForms m.config source = .ok vs) : m.run source = exec (forms none vs) m := by
  change exec (program source) m = _
  unfold program
  rw [exec_bind, exec_get, continueWith_ok, h]

theorem run_eq_error {m : Machine} {source : String} {e : ReadError}
    (h : readForms m.config source = .error e) : m.run source = (.error (.reading e), m) := by
  change exec (program source) m = _
  unfold program
  rw [exec_bind, exec_get, continueWith_ok, h, exec_throw]

theorem framed_run (m : Machine) (source : String) : Framed m (m.run source).2 :=
  framed_evolves (balanced_program source m).evolves

/-- Behind the first part, a program of two parts goes on with the second, which stands below. -/
theorem run_append_newline {m : Machine} (hcomments : m.config.comments = false) {a b : String}
    {vs ws : List Value} (ha : readForms m.config a = .ok vs) (hb : readForms m.config b = .ok ws) :
    m.run (a ++ "\n" ++ b) =
      continueWith (fun last => forms last (ws.map (Value.move (Position.below a)))) (m.run a) := by
  have hread : readForms m.config (a ++ "\n" ++ b) =
      .ok (vs ++ ws.map (Value.move (Position.below a))) := by
    rw [readForms_append_newline (Or.inl hcomments) ha, hb]
    rfl
  rw [run_eq_exec hread, forms_append, exec_bind, run_eq_exec ha]

end Machine

theorem map_bare_of_rel {v v' : Option Value} (h : Option.Rel Similar v v') :
    v.map Value.bare = v'.map Value.bare := by
  cases h with
  | none => rfl
  | some hv => exact congrArg some hv

/-- One run or two, without comments. The one run of `a` and of `b` below it fails as `a` does, or goes on
as a run of `b` on the machine that `a` leaves, but for positions. Operations of the host may do anything
but tell positions apart. -/
theorem one_run_or_two {m : Machine} (hcomments : m.config.comments = false) {a b : String}
    {vs ws : List Value} (ha : readForms m.config a = .ok vs) (hb : readForms m.config b = .ok ws) :
    (∀ err m₁, m.run a = (.error err, m₁) → m.run (a ++ "\n" ++ b) = (.error err, m₁)) ∧
    ∀ last m₁, m.run a = (.ok last, m₁) →
      (ws = [] → m.run (a ++ "\n" ++ b) = (.ok last, m₁) ∧ m₁.run b = (.ok none, m₁)) ∧
      (ws ≠ [] → (∀ op ∈ m.hostOperations, Blind op) →
        let r := m.run (a ++ "\n" ++ b)
        let r' := m₁.run b
        ((∃ v v', r.1 = .ok v ∧ r'.1 = .ok v' ∧ v.map Value.bare = v'.map Value.bare) ∨
          ∃ err err', r.1 = .error err ∧ r'.1 = .error err' ∧
            err.kind? = err'.kind? ∧ err.message = err'.message) ∧
        r.2.world = r'.2.world ∧ r.2.bare = r'.2.bare) := by
  have honce := Machine.run_append_newline hcomments ha hb
  refine ⟨fun err m₁ hrun => by rw [honce, hrun, continueWith_error], fun last m₁ hrun => ?_⟩
  rw [hrun, continueWith_ok] at honce
  have hframed : Framed m m₁ := by
    have h := m.framed_run a
    rwa [hrun] at h
  have hsecond : m₁.run b = exec (forms none ws) m₁ := Machine.run_eq_exec (hframed.config ▸ hb)
  rw [honce, hsecond]
  constructor
  · rintro rfl
    exact ⟨rfl, rfl⟩
  · intro hne hblind
    obtain ⟨w, rest, rfl⟩ := List.exists_cons_of_ne_nil hne
    -- behind the first form of the second part, the value of the first part is forgotten
    have hforget : forms last ((w :: rest).map (Value.move (Position.below a))) =
        forms none ((w :: rest).map (Value.move (Position.below a))) := rfl
    rw [hforget]
    have htwins : Twins m₁ m₁ := ⟨rfl, hframed.hostOperations ▸ hblind⟩
    have hsimilar := forall₂_similar_iff.2 (map_bare_move (Position.below a) (w :: rest))
    obtain ⟨hout, htwins'⟩ := agrees_forms .none hsimilar m₁ m₁ htwins
    refine ⟨?_, htwins'.world, htwins'.bare⟩
    exact hout.value_or_error.imp_left fun ⟨v, v', hv, hv', hrel⟩ =>
      ⟨v, v', hv, hv', map_bare_of_rel hrel⟩

/-- A keyword is bound in the first part, and its square root asked for in the second: in the one run the
error is of the third line. -/
theorem one_run_or_two_below :
    let m := (Machine.new ⟨false, 4⟩ fun _ => 0).register Shell.sqrtFunction
    let m₁ := m.define "x" (.keyword "k")
    (∀ op ∈ m.hostOperations, Blind op) ∧
    m.run "(def x\n:k)" = (.ok (some (.keyword "k")), m₁) ∧
    ∃ err err', (m.run ("(def x\n:k)" ++ "\n" ++ "(sqrt x)")).1 = .error err ∧
      (m₁.run "(sqrt x)").1 = .error err' ∧ err ≠ err' ∧
      err.kind? = err'.kind? ∧ err.message = err'.message := by
  intro m m₁
  have ha : readForms ⟨false, 4⟩ "(def x\n:k)" =
      .ok [.list [.symbol "def", .symbol "x", .keyword "k"] false (some ⟨1, 1⟩)] := by decide +kernel
  have hb : readForms ⟨false, 4⟩ "(sqrt x)" =
      .ok [.list [.symbol "sqrt", .symbol "x"] false (some ⟨1, 1⟩)] := by decide +kernel
  have hfirst : m.run "(def x\n:k)" = (.ok (some (.keyword "k")), m₁) := by
    rw [Machine.run_eq_exec (m := m) ha]
    rfl
  have honce : (m.run ("(def x\n:k)" ++ "\n" ++ "(sqrt x)")).1 =
      .error (.running ⟨.unconvertible (.keyword "k") .number, some ⟨3, 1⟩⟩) := by
    rw [Machine.run_append_newline (m := m) rfl ha hb, hfirst]
    rfl
  have hsecond : (m₁.run "(sqrt x)").1 =
      .error (.running ⟨.unconvertible (.keyword "k") .number, some ⟨1, 1⟩⟩) := by
    rw [Machine.run_eq_exec (m := m₁) hb]
    rfl
  have hblind : ∀ op ∈ m.hostOperations, Blind op := blind_new_register_sqrt _ _
  refine ⟨hblind, hfirst, ?_⟩
  obtain ⟨v, v', hv, -⟩ | ⟨err, err', herr, herr', hsaid⟩ :=
    (((one_run_or_two (m := m) rfl ha hb).2 _ m₁ hfirst).2 (by simp) hblind).1
  · cases honce.symm.trans hv
  · refine ⟨err, err', herr, herr', ?_, hsaid⟩
    obtain rfl := Except.error.inj (honce.symm.trans herr)
    obtain rfl := Except.error.inj (hsecond.symm.trans herr')
    simp

/-- A function of the host that answers with the line of a list tells one run from two. And where `b` is
read under the default limit on nesting but not under the interpreter's own, the one run does not run `a`
either. -/
theorem one_run_or_two_line :
    let m := (Machine.new {} fun _ => 0).register lineFunction
    let flat := Machine.new ⟨false, 1⟩ fun _ => 0
    (m.run ":k" = (.ok (some (.keyword "k")), m) ∧
      (m.run "(line-of '(:k))").1 = .ok (some (.number 1)) ∧
      (m.run (":k" ++ "\n" ++ "(line-of '(:k))")).1 = .ok (some (.number 2))) ∧
    (∃ vs ws, readForms {} "(def x :k)" = .ok vs ∧ readForms {} "((:k))" = .ok ws) ∧
    flat.run "(def x :k)" = (.ok (some (.keyword "k")), flat.define "x" (.keyword "k")) ∧
    (flat.run ("(def x :k)" ++ "\n" ++ "((:k))")).2 = flat := by
  intro m flat
  have hkeyword : readForms {} ":k" = .ok [.keyword "k"] := by decide +kernel
  have hline : readForms {} "(line-of '(:k))" =
      .ok [.list [.symbol "line-of", .list [.keyword "k"] true (some ⟨1, 10⟩)] false
        (some ⟨1, 1⟩)] := by decide +kernel
  have hfirst : m.run ":k" = (.ok (some (.keyword "k")), m) := by
    rw [Machine.run_eq_exec (m := m) hkeyword]
    rfl
  have hdef : readForms ⟨false, 1⟩ "(def x :k)" =
      .ok [.list [.symbol "def", .symbol "x", .keyword "k"] false (some ⟨1, 1⟩)] := by decide +kernel
  have hdef' : readForms {} "(def x :k)" =
      .ok [.list [.symbol "def", .symbol "x", .keyword "k"] false (some ⟨1, 1⟩)] := by decide +kernel
  have hnested : readForms {} "((:k))" =
      .ok [.list [.list [.keyword "k"] false (some ⟨1, 2⟩)] false (some ⟨1, 1⟩)] := by decide +kernel
  have hrefused : readForms ⟨false, 1⟩ ("(def x :k)" ++ "\n" ++ "((:k))") =
      .error ⟨.tooNested 1, ⟨2, 2⟩⟩ := by decide +kernel
  refine ⟨⟨hfirst, ?_, ?_⟩, ⟨_, _, hdef', hnested⟩, ?_, ?_⟩
  · rw [Machine.run_eq_exec (m := m) hline]
    rfl
  · rw [Machine.run_append_newline (m := m) rfl hkeyword hline, hfirst]
    rfl
  · rw [Machine.run_eq_exec (m := flat) hdef]
    rfl
  · rw [Machine.run_eq_error (m := flat) hrefused]

end MiniLisp
