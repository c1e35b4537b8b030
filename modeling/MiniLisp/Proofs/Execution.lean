import MiniLisp.Interpreter

/-! What an evaluation does when it is started on a machine: its outcome and the machine it leaves,
one equation for each way of building evaluations. Everything said of the evaluator later is said
of `exec` and proved from these equations. -/

namespace MiniLisp.Eval

variable {α β : Type}

/-- The outcome of `e` started on `m`, and the machine it leaves. -/
def exec (e : Eval α) (m : Machine) : Except Error α × Machine := e.run.run m

def continueWith (f : α → Eval β) : Except Error α × Machine → Except Error β × Machine
  | (.ok a, m) => exec (f a) m
  | (.error err, m) => (.error err, m)

@[simp] theorem continueWith_ok (f : α → Eval β) (a : α) (m : Machine) :
    continueWith f (.ok a, m) = exec (f a) m := rfl

@[simp] theorem continueWith_error (f : α → Eval β) (err : Error) (m : Machine) :
    continueWith f (.error err, m) = (.error err, m) := rfl

@[simp] theorem exec_pure (a : α) (m : Machine) : exec (pure a) m = (.ok a, m) := rfl

theorem exec_bind (e : Eval α) (f : α → Eval β) (m : Machine) :
    exec (e >>= f) m = continueWith f (exec e m) := by
  unfold exec
  rw [ExceptT.run_bind, StateT.run_bind]
  generalize e.run.run m = r
  obtain ⟨r, m'⟩ := r
  cases r <;> rfl

@[simp] theorem exec_throw (err : Error) (m : Machine) :
    exec (throw err : Eval α) m = (.error err, m) := rfl

@[simp] theorem exec_fail (c : Cause) (m : Machine) :
    exec (fail c : Eval α) m = (.error (.ofCause c), m) := rfl

@[simp] theorem exec_ofExcept_ok (a : α) (m : Machine) : exec (ofExcept (.ok a)) m = (.ok a, m) := rfl

@[simp] theorem exec_ofExcept_error (c : Cause) (m : Machine) :
    exec (ofExcept (.error c : Except Cause α)) m = (.error (.ofCause c), m) := rfl

@[simp] theorem exec_get (m : Machine) : exec (get : Eval Machine) m = (.ok m, m) := rfl

@[simp] theorem exec_modify (f : Machine → Machine) (m : Machine) :
    exec (modify f : Eval Unit) m = (.ok (), f m) := rfl

@[simp] theorem exec_modifyGet (f : Machine → α × Machine) (m : Machine) :
    exec (modifyGet f : Eval α) m = (.ok (f m).1, (f m).2) := rfl

@[simp] theorem exec_ofOutcome (r : Except Error α) (m : Machine) : exec (ofOutcome r) m = (r, m) := rfl

theorem exec_located (p : Option Position) (e : Eval α) (m : Machine) :
    exec (located p e) m = ((exec e m).1.mapError (Error.orAt p), (exec e m).2) := rfl

theorem exec_outcome (e : Eval α) (m : Machine) :
    exec (outcome e) m = (.ok (exec e m).1, (exec e m).2) := rfl

theorem exec_perform (op : Op α) (m : Machine) :
    exec (perform op) m =
      ((op m.world).1.mapError Error.ofCause, { m with world := (op m.world).2 }) := by
  unfold perform exec
  simp only [ExceptT.run_mk, StateT.run]
  generalize op m.world = r
  obtain ⟨r, w⟩ := r
  cases r <;> rfl

theorem exec_leave_some {m m' : Machine} (h : m.leave? = some m') : exec leave m = (.ok (), m') := by
  unfold leave
  rw [exec_bind, exec_get, continueWith_ok, h]
  rfl

theorem exec_leave_none {m : Machine} (h : m.leave? = none) :
    exec leave m = (.error .leftRoot, m) := by
  unfold leave
  rw [exec_bind, exec_get, continueWith_ok, h]
  rfl

/-- The body of a `let` ends in whatever machine leaving its last scope gives. -/
theorem exec_within (bindings : Bindings Value) (e : Eval α) (m : Machine) :
    exec (within bindings e) m =
      continueWith (fun _ => ofOutcome (exec e (m.enter bindings)).1)
        (exec leave (exec e (m.enter bindings)).2) := by
  unfold within
  rw [exec_bind, exec_modify, continueWith_ok, exec_bind, exec_outcome, continueWith_ok, exec_bind]

/-- A call runs its body in a scope of its own and puts the caller's scope back. -/
theorem exec_calling (scope : ScopeId) (bindings : Bindings Value) (e : Eval α) (m : Machine) :
    exec (calling scope bindings e) m =
      let r := exec e ({ m with current := scope }.enter bindings)
      (r.1, { r.2 with current := m.current }) := by
  unfold calling
  rw [exec_bind, exec_get, continueWith_ok, exec_bind, exec_modify, continueWith_ok, exec_bind,
    exec_outcome, continueWith_ok, exec_bind, exec_modify, continueWith_ok, exec_ofOutcome]

theorem exec_apply_native (k : Level) (h : Header) (n : Native) (args : List Value) (m : Machine) :
    exec (k.apply (.native h n) args) m =
      match bindArguments h.params args with
      | .ok vs => exec (perform (m.operation n vs)) m
      | .error c => (.error (.ofCause c), m) := by
  change exec (ofExcept (bindArguments h.params args) >>= fun vs =>
    get >>= fun m => perform (m.operation n vs)) m = _
  rw [exec_bind]
  cases bindArguments h.params args <;> rfl

/-- A function of the program runs its body in a scope with the supplied arguments, inside the scope that
it captured; the caller's scope is put back at the end. -/
theorem exec_apply_lambda (k : Level) (h : Header) (body : Value) (captured : Option ScopeId)
    (args : List Value) (m : Machine) :
    exec (k.apply (.lambda h body captured) args) m =
      match suppliedArguments h.params args with
      | .ok bindings =>
        let scope := captured.getD m.global
        let r := exec (k.body body) ({ m with current := scope }.enter (.ofList bindings))
        (r.1, { r.2 with current := m.current })
      | .error c => (.error (.ofCause c), m) := by
  change exec (ofExcept (suppliedArguments h.params args) >>= fun bindings =>
    get >>= fun m => calling (captured.getD m.global) (.ofList bindings) (k.body body)) m = _
  rw [exec_bind]
  cases suppliedArguments h.params args with
  | error c => rfl
  | ok bindings =>
    rw [exec_ofExcept_ok, continueWith_ok, exec_bind, exec_get, continueWith_ok]
    exact exec_calling _ _ _ _

end MiniLisp.Eval

namespace MiniLisp.Level

/-- Whatever the depth, expressions and lists are evaluated with some number of levels left. -/
theorem atDepth_eq (depth : UInt64) :
    ∃ n n', atDepth depth = ⟨(ofDepth n).expr, (ofDepth n').call⟩ := by
  unfold atDepth
  split
  · exact ⟨_, maxDepth + 1, rfl⟩
  · exact ⟨_, maxDepth - depth.toNat, rfl⟩

theorem atDepth_of_lt {depth : UInt64} (h : depth.toNat + 1 < UInt64.size) :
    atDepth depth = ofDepth (maxDepth - depth.toNat) := by
  have hne : depth + 1 ≠ 0 := by
    intro hzero
    have hsum := congrArg UInt64.toNat hzero
    rw [UInt64.toNat_add, UInt64.toNat_one, UInt64.toNat_zero] at hsum
    have hlt : (depth.toNat + 1) % 2 ^ 64 = depth.toNat + 1 := Nat.mod_eq_of_lt h
    omega
  rw [atDepth, if_neg hne]
  rfl

end MiniLisp.Level

namespace MiniLisp.Machine

@[simp] theorem steps_nil (m : Machine) : m.steps [] = m := rfl

@[simp] theorem steps_cons (m : Machine) (s : Step) (ss : List Step) :
    m.steps (s :: ss) = (m.step s).2.steps ss := rfl

end MiniLisp.Machine
