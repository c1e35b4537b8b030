import Mathlib.Data.List.Forall2
import MiniLisp.Proofs.Execution

/-! Choosing between branches. Trying a branch comes to one of four verdicts (`Tried`), and a choice goes
by nothing else (`exec_choice_cons`): a branch whose condition holds is taken, one that is false or under
`:else` is passed, and one that is no branch, or whose condition has no truth value, stops the choice.
Branches in a row are passed, or the choice ends with them whatever stands behind (`passed_or_decided`).
So neither what stands behind the branch that is taken nor any result but the one that is taken can
matter, and a branch under `:else` may stand anywhere among the others. -/

namespace MiniLisp

namespace Level

open Eval

/-- What trying a branch comes to. -/
inductive Verdict where
  | holds (result : Value)
  | fails
  /-- The condition is `:else`, and this is the result to fall back on. -/
  | otherwise (result : Value)
  | stops (err : Error)

/-- `Tried k m b verdict m'`: trying the branch `b` on the machine `m` comes to `verdict` and leaves
`m'`. -/
inductive Tried (k : Level) (m : Machine) : Value → Verdict → Machine → Prop
  | malformed {b : Value} : (∀ test result quoted opened, b ≠ .list [test, result] quoted opened) →
    Tried k m b (.stops (.ofCause (.malformedBranch b))) m
  | failed {test result : Value} {quoted : Bool} {opened : Option Position} {err : Error}
    {m' : Machine} : exec (k.expr test) m = (.error err, m') →
    Tried k m (.list [test, result] quoted opened) (.stops err) m'
  | notBool {test result v : Value} {quoted : Bool} {opened : Option Position} {m' : Machine} :
    exec (k.expr test) m = (.ok v, m') → v.ty ≠ .bool → v ≠ .keyword "else" →
    Tried k m (.list [test, result] quoted opened) (.stops (.ofCause (.conditionNotBool .choice v))) m'
  | isElse {test result : Value} {quoted : Bool} {opened : Option Position} {m' : Machine} :
    exec (k.expr test) m = (.ok (.keyword "else"), m') →
    Tried k m (.list [test, result] quoted opened) (.otherwise result) m'
  | isFalse {test result : Value} {quoted : Bool} {opened : Option Position} {m' : Machine} :
    exec (k.expr test) m = (.ok (.bool false), m') →
    Tried k m (.list [test, result] quoted opened) .fails m'
  | isTrue {test result : Value} {quoted : Bool} {opened : Option Position} {m' : Machine} :
    exec (k.expr test) m = (.ok (.bool true), m') →
    Tried k m (.list [test, result] quoted opened) (.holds result) m'

def Verdict.proceed (k : Level) (fallback : Option Value) (bs : List Value) : Verdict → Eval Value
  | holds result => k.expr result
  | fails => k.choice fallback bs
  | otherwise result => k.choice (some result) bs
  | stops err => throw err

/-- `Passed k m bs results m'`: the branches, tried one after another from `m` on, are all passed and lead
to `m'`. The results are those under a condition that is `:else`, in order. -/
inductive Passed (k : Level) : Machine → List Value → List Value → Machine → Prop
  | nil (m : Machine) : Passed k m [] [] m
  | fails {m m' m'' : Machine} {b : Value} {bs results : List Value} : Tried k m b .fails m' →
    Passed k m' bs results m'' → Passed k m (b :: bs) results m''
  | otherwise {m m' m'' : Machine} {b result : Value} {bs results : List Value} :
    Tried k m b (.otherwise result) m' → Passed k m' bs results m'' →
    Passed k m (b :: bs) (result :: results) m''

inductive SameCondition : Value → Value → Prop
  | intro (test result result' : Value) (quoted : Bool) (opened : Option Position) :
    SameCondition (.list [test, result] quoted opened) (.list [test, result'] quoted opened)

theorem branch?_eq_none {b : Value}
    (h : ∀ test result quoted opened, b ≠ .list [test, result] quoted opened) : branch? b = none := by
  unfold branch?
  split
  · exact (h _ _ _ _ rfl).elim
  · rfl

theorem isElse_eq_true_iff {v : Value} : isElse v = true ↔ v = .keyword "else" := by
  unfold isElse
  split
  · simp
  · rename_i hv
    simpa using hv "else"

theorem condition_of_ne_bool {form : SpecialForm} {v : Value} (h : v.ty ≠ .bool) :
    condition form v = fail (.conditionNotBool form v) := by
  unfold condition
  split
  · exact absurd rfl h
  · rfl

theorem exists_tried (k : Level) (m : Machine) (b : Value) :
    ∃ verdict m', Tried k m b verdict m' := by
  by_cases hb : ∃ test result quoted opened, b = .list [test, result] quoted opened
  · obtain ⟨test, result, quoted, opened, rfl⟩ := hb
    obtain ⟨outcome, m', htest⟩ : ∃ outcome m', exec (k.expr test) m = (outcome, m') := ⟨_, _, rfl⟩
    match outcome with
    | .error err => exact ⟨_, m', .failed htest⟩
    | .ok v =>
      obtain ⟨holds, rfl⟩ | hty : (∃ holds, v = .bool holds) ∨ v.ty ≠ .bool := by
        cases v <;> simp [Value.ty]
      · match holds with
        | true => exact ⟨_, m', .isTrue htest⟩
        | false => exact ⟨_, m', .isFalse htest⟩
      · by_cases helse : v = .keyword "else"
        · exact ⟨_, m', .isElse (helse ▸ htest)⟩
        · exact ⟨_, m', .notBool htest hty helse⟩
  · simp only [not_exists] at hb
    exact ⟨_, m, .malformed hb⟩

section

variable {k : Level} {m m' : Machine}

theorem exec_choice_of_value {test v : Value} (h : exec (k.expr test) m = (.ok v, m'))
    (fallback : Option Value) (result : Value) (quoted : Bool) (opened : Option Position)
    (bs : List Value) :
    exec (k.choice fallback (.list [test, result] quoted opened :: bs)) m =
      exec (if isElse v then k.choice (some result) bs
        else condition .choice v >>= fun holds =>
          if holds then k.expr result else k.choice fallback bs) m' := by
  rw [choice, branch?]
  dsimp only
  rw [exec_bind, h, continueWith_ok]

theorem exec_choice_cons {b : Value} {verdict : Verdict} (h : Tried k m b verdict m')
    (fallback : Option Value) (bs : List Value) :
    exec (k.choice fallback (b :: bs)) m = exec (verdict.proceed k fallback bs) m' := by
  induction h with
  | malformed hb =>
    rw [choice, branch?_eq_none hb]
    rfl
  | failed htest =>
    rw [choice, branch?]
    dsimp only
    rw [exec_bind, htest, continueWith_error]
    rfl
  | @notBool test result v quoted opened m' htest hty hne =>
    have helse : isElse v = false := by rwa [← Bool.not_eq_true, isElse_eq_true_iff]
    rw [exec_choice_of_value htest, helse, condition_of_ne_bool hty]
    rfl
  | isElse htest | isFalse htest | isTrue htest =>
    rw [exec_choice_of_value htest]
    rfl

/-- Branches that are passed take the choice where they lead, with the last result under `:else` to fall
back on. -/
theorem exec_choice_append {before results : List Value} (h : Passed k m before results m')
    (fallback : Option Value) (more : List Value) :
    exec (k.choice fallback (before ++ more)) m =
      exec (k.choice (results.getLast?.or fallback) more) m' := by
  induction h generalizing fallback with
  | nil m => rfl
  | fails htried _ ih => exact (exec_choice_cons htried fallback _).trans (ih fallback)
  | @otherwise m m₁ m' b result bs results htried _ ih =>
    have hlast : (result :: results).getLast?.or fallback = results.getLast?.or (some result) := by
      rw [List.getLast?_cons]
      cases results.getLast? <;> rfl
    rw [hlast]
    exact (exec_choice_cons htried fallback _).trans (ih (some result))

theorem exec_choice_of_tried {before results : List Value} {b : Value} {verdict : Verdict}
    {m'' : Machine} (hbefore : Passed k m before results m') (hb : Tried k m' b verdict m'')
    (fallback : Option Value) (after : List Value) :
    exec (k.choice fallback (before ++ b :: after)) m =
      exec (verdict.proceed k (results.getLast?.or fallback) after) m'' := by
  rw [exec_choice_append hbefore, exec_choice_cons hb]

/-- Either branches in a row are passed, or the choice ends with them, whatever stands behind them and
whatever there is to fall back on. -/
theorem passed_or_decided (k : Level) (m : Machine) (before : List Value) :
    (∃ results m', Passed k m before results m') ∨
      ∃ ending, ∀ fallback more, exec (k.choice fallback (before ++ more)) m = ending := by
  induction before generalizing m with
  | nil => exact Or.inl ⟨[], m, .nil m⟩
  | cons b bs ih =>
    obtain ⟨verdict, m₁, htried⟩ := exists_tried k m b
    have hstep (fallback : Option Value) (more : List Value) :
        exec (k.choice fallback (b :: bs ++ more)) m =
          exec (verdict.proceed k fallback (bs ++ more)) m₁ := exec_choice_cons htried fallback _
    match verdict with
    | .holds result => exact Or.inr ⟨_, hstep⟩
    | .stops err => exact Or.inr ⟨_, hstep⟩
    | .fails =>
      obtain ⟨results, m', hpassed⟩ | ⟨ending, hending⟩ := ih m₁
      · exact Or.inl ⟨results, m', .fails htried hpassed⟩
      · exact Or.inr ⟨ending, fun fallback more => (hstep fallback more).trans (hending ..)⟩
    | .otherwise result =>
      obtain ⟨results, m', hpassed⟩ | ⟨ending, hending⟩ := ih m₁
      · exact Or.inl ⟨result :: results, m', .otherwise htried hpassed⟩
      · exact Or.inr ⟨ending, fun fallback more => (hstep fallback more).trans (hending ..)⟩

theorem Passed.sameConditions {before before' results : List Value}
    (h : Passed k m before results m') (hsame : List.Forall₂ SameCondition before before') :
    ∃ results', Passed k m before' results' m' := by
  induction h generalizing before' with
  | nil m =>
    cases hsame
    exact ⟨[], .nil m⟩
  | fails htried _ ih =>
    obtain ⟨b', bs', hb, hbs, rfl⟩ := List.forall₂_cons_left_iff.1 hsame
    obtain ⟨results', hpassed⟩ := ih hbs
    obtain ⟨test, result, result', quoted, opened⟩ := hb
    cases htried with
    | isFalse htest => exact ⟨results', .fails (.isFalse htest) hpassed⟩
  | otherwise htried _ ih =>
    obtain ⟨b', bs', hb, hbs, rfl⟩ := List.forall₂_cons_left_iff.1 hsame
    obtain ⟨results', hpassed⟩ := ih hbs
    obtain ⟨test, result, result', quoted, opened⟩ := hb
    cases htried with
    | isElse htest => exact ⟨result' :: results', .otherwise (.isElse htest) hpassed⟩

/-- A branch that is under `:else` on every machine may change places with one that is not under `:else`
on this one. -/
theorem exec_choice_exchange {e b result : Value} (helse : ∀ m, Tried k m e (.otherwise result) m)
    (hb : ∀ r m', ¬ Tried k m b (.otherwise r) m') (fallback : Option Value) (after : List Value) :
    exec (k.choice fallback (e :: b :: after)) m = exec (k.choice fallback (b :: e :: after)) m := by
  -- on both sides `b` is tried on the same machine, and comes to the same verdict
  obtain ⟨verdict, m', htried⟩ := exists_tried k m b
  rw [exec_choice_cons (helse m), Verdict.proceed, exec_choice_cons htried, exec_choice_cons htried]
  match verdict with
  | .holds result => rfl
  | .stops err => rfl
  | .fails => exact (exec_choice_cons (helse m') fallback after).symm
  | .otherwise r => exact absurd htried (hb r m')

end

theorem tried_else {levels : Nat} (h : 0 < levels) (result : Value) (quoted : Bool)
    (opened : Option Position) (m : Machine) :
    Tried (ofDepth levels) m (.list [.keyword "else", result] quoted opened) (.otherwise result) m := by
  obtain ⟨n, rfl⟩ : ∃ n, levels = n + 1 := ⟨levels - 1, by omega⟩
  exact .isElse rfl

end Level

open Level Eval

/-- A choice is lazy, and `:else` may stand anywhere in it. Of the branches reached, only the one that
decides has its result evaluated; a branch under `:else` may change places with a neighbour; and where all
branches are passed, the last result under `:else` counts. -/
theorem choice_lazy (m : Machine) {depth : Nat} (hdepth : depth + 1 < maxDepth) :
    let k := Level.ofDepth (maxDepth - (depth + 1))
    (∀ before results m₁ b result m₂ after, Passed k m before results m₁ →
      Tried k m₁ b (.holds result) m₂ →
      exec (k.special .choice (before ++ b :: after)) m = exec (k.expr result) m₂ ∧
      ∀ before' after', List.Forall₂ SameCondition before before' →
        exec (k.special .choice (before' ++ b :: after')) m =
          exec (k.special .choice (before ++ b :: after)) m) ∧
    (∀ before b after result quoted opened,
      (∀ results m₁, Passed k m before results m₁ → ∀ r m₂, ¬ Tried k m₁ b (.otherwise r) m₂) →
      exec (k.special .choice
          (before ++ .list [.keyword "else", result] quoted opened :: b :: after)) m =
        exec (k.special .choice
          (before ++ b :: .list [.keyword "else", result] quoted opened :: after)) m) ∧
    (∀ branches results last m₁, Passed k m branches (results ++ [last]) m₁ →
      exec (k.special .choice branches) m = exec (k.expr last) m₁) ∧
    ∀ before results m₁ b err m₂ after, Passed k m before results m₁ → Tried k m₁ b (.stops err) m₂ →
      exec (k.special .choice (before ++ b :: after)) m = (.error err, m₂) := by
  intro k
  refine ⟨?_, ?_, ?_, ?_⟩
  · intro before results m₁ b result m₂ after hbefore hb
    have htaken := exec_choice_of_tried hbefore hb none after
    refine ⟨htaken, ?_⟩
    intro before' after' hsame
    obtain ⟨results', hbefore'⟩ := hbefore.sameConditions hsame
    exact (exec_choice_of_tried hbefore' hb none after').trans htaken.symm
  · intro before b after result quoted opened hb
    have hlevel : 0 < maxDepth - (depth + 1) := by omega
    have helse := tried_else hlevel result quoted opened
    change exec (k.choice none _) m = exec (k.choice none _) m
    -- where the choice ends with the branches before, neither of the two is tried
    obtain ⟨results, m₁, hbefore⟩ | ⟨ending, hending⟩ := passed_or_decided k m before
    · rw [exec_choice_append hbefore, exec_choice_append hbefore]
      exact exec_choice_exchange helse (hb results m₁ hbefore) _ after
    · rw [hending, hending]
  · intro branches results last m₁ hpassed
    have hend := exec_choice_append hpassed none []
    rw [List.append_nil, List.getLast?_concat] at hend
    exact hend
  · intro before results m₁ b err m₂ after hbefore hb
    exact exec_choice_of_tried hbefore hb none after

/-- The second condition binds `x` and evaluates to `:else`: its result is evaluated if no third branch is
there. If a third one holds, what stands behind it need not be a branch. -/
theorem choice_lazy_computed_else :
    let m := Machine.new {} fun _ => 0
    let k := Level.ofDepth (maxDepth - (9995 + 1))
    let m₁ := m.define "x" (.keyword "else")
    let test := Value.list [.symbol "def", .symbol "x", .keyword "else"] false none
    let first := Value.list [.keyword "else", .symbol "y"] false none
    let second := Value.list [test, .symbol "x"] false none
    let third := Value.list [.symbol "true", .symbol "x"] false none
    9995 + 1 < maxDepth ∧ Passed k m [first, second] [.symbol "y", .symbol "x"] m₁ ∧
      Tried k m₁ third (.holds (.symbol "x")) m₁ ∧
      exec (k.special .choice [first, second]) m = (.ok (.keyword "else"), m₁) ∧
      exec (k.special .choice [first, second, third, .nil]) m = (.ok (.keyword "else"), m₁) ∧
      exec (k.special .choice
        [.list [.keyword "else", .nil] false none, .list [test, .nil] false none, third]) m =
          (.ok (.keyword "else"), m₁) ∧
      exec (k.special .choice [first, third, second]) m =
        exec (k.special .choice [third, first, second]) m := by
  intro m k m₁ test first second third
  have hdepth : 9995 + 1 < maxDepth := by decide
  have hpassed : Passed k m [first, second] [.symbol "y", .symbol "x"] m₁ :=
    .otherwise (.isElse rfl) (.otherwise (.isElse rfl) (.nil m₁))
  have hthird : Tried k m₁ third (.holds (.symbol "x")) m₁ := .isTrue rfl
  have hnot : ∀ results m', Passed k m [] results m' →
      ∀ r m'', ¬ Tried k m' third (.otherwise r) m'' := by
    rintro results m' ⟨⟩ r m'' (htried : Tried k m (.list [.symbol "true", _] false none) _ m'')
    cases htried with
    | isElse htest => cases htest
  have hx : exec (k.expr (.symbol "x")) m₁ = (.ok (.keyword "else"), m₁) := rfl
  obtain ⟨hholds, hexchange, hlast, -⟩ := choice_lazy m hdepth
  obtain ⟨htaken, hsame⟩ := hholds _ _ _ _ _ _ [.nil] hpassed hthird
  have hresults := hsame _ [] (.cons (.intro _ _ .nil _ _) (.cons (.intro _ _ .nil _ _) .nil))
  exact ⟨hdepth, hpassed, hthird, (hlast _ [.symbol "y"] _ _ hpassed).trans hx, htaken.trans hx,
    hresults.trans (htaken.trans hx), hexchange [] third [second] _ _ _ hnot⟩

end MiniLisp
