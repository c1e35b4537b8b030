import MiniLisp.Proofs.Agreement
import MiniLisp.Proofs.Depth
import MiniLisp.Proofs.RoundTrip

/-! Print, read and eval. A list written as code and read again is the same list but for positions
(`firstForm_code`), so a program that reads the code of a list and evaluates what it has read does what
evaluating the list does. It does so one level deeper, which only the depth limit can tell
(`exec_evalRead`). -/

namespace MiniLisp

open Value Grammar

namespace Value

/-- Values that do not read back as they are: those that print as a name, and the negative zero, which
loses its sign. -/
inductive Inexact : Value → Prop
  | named {v : Value} : Named v → Inexact v
  | negativeZero {x : Float} : Number.isZero x → Number.isNegative x → Inexact (.number x)

theorem exact_atom {v : Value} (hatom : v.ty ≠ .list) (h : ¬ Inexact v) : ¬ Contains Inexact v :=
  (contains_atom hatom).not.2 h

theorem exact_list {items : List Value} {quoted : Bool} {opened : Option Position}
    (h : ∀ v ∈ items, ¬ Contains Inexact v) : ¬ Contains Inexact (.list items quoted opened) := by
  rw [contains_list (by rintro ⟨⟨⟩⟩)]
  rintro ⟨v, hv, hc⟩
  exact h v hv hc

theorem similar_list {ws items : List Value} (h : List.Forall₂ Similar ws items) (quoted : Bool)
    (opened opened' : Option Position) :
    Similar (.list ws quoted opened) (.list items quoted opened') := by
  rw [Similar, bare_list, bare_list, forall₂_similar_iff.1 h]

end Value

theorem derives_number {n : Nat} {x : Float} (h : ¬ Inexact (.number x)) :
    Derives Similar n (.number x) := by
  have hnan : Number.isNaN x = false := by
    by_contra hx
    exact h (.named (.nan (by simpa using hx)))
  have hinf : Number.isInfinite x = false := by
    by_contra hx
    exact h (.named (.infinite (by simpa using hx)))
  have hsign : Number.isZero x → Number.isNegative x = false := by
    intro hzero
    by_contra hx
    exact h (.negativeZero hzero (by simpa using hx))
  intro p rest hrest
  have hform := @form_number n p rest hrest x hnan hinf
  rw [Number.read_text_eq hnan hinf hsign] at hform
  exact ⟨.number x, hform, rfl⟩

theorem derives_of_readable {n : Nat} {v : Value} (h : Readable n v) (hexact : ¬ Contains Inexact v) :
    Derives Similar n v := by
  induction h with
  | nil => exact absurd (.here (.named .nil)) hexact
  | bool b => exact absurd (.here (.named (.bool b))) hexact
  | number x => exact derives_number fun hx => hexact (.here hx)
  | string s => exact fun p rest _ => ⟨_, form_string _ p s rest, rfl⟩
  | symbol hname hstart => exact fun p rest hrest => ⟨_, form_symbol hrest hname hstart, rfl⟩
  | keyword hname => exact fun p rest hrest => ⟨_, form_keyword hrest hname, rfl⟩
  | list quoted opened _ ih =>
    intro p rest _
    obtain ⟨ws, hform, hsimilar⟩ :=
      form_list_of_derives quoted opened (fun v hv => ih v hv fun hc => hexact (.inside hv hc)) p rest
    exact ⟨_, hform, similar_list hsimilar quoted _ _⟩

theorem firstForm_code {v : Value} (h : Readable maxNesting v) (hexact : ¬ Contains Inexact v) :
    Similar (Builtin.firstForm v.code) v := by
  have hend : Follows [] := by simp [Follows]
  obtain ⟨w, hform, hsimilar⟩ := derives_of_readable h hexact .start [] hend
  have hread : readForms {} v.code = .ok [w] := readForms_of_program (forms_singleton hform)
  rw [Builtin.firstForm, hread]
  exact hsimilar

open Eval

theorem exec_resolve {m : Machine} {name : String} {v : Value} (h : m.resolve name = .ok v) :
    exec (resolve name) m = (.ok v, m) := by
  unfold resolve
  rw [exec_bind, exec_get, continueWith_ok, h, exec_ofExcept_ok]

theorem exec_located_none {α : Type} (e : Eval α) (m : Machine) :
    exec (located none e) m = exec e m := by
  rw [exec_located]
  generalize exec e m = r
  obtain ⟨r, m'⟩ := r
  cases r with
  | ok a => rfl
  | error err => cases err <;> simp [Except.mapError, Error.orAt]

/-- The program that reads a text and evaluates what it has read. -/
def Value.evalRead (source : String) (opened opened' : Option Position) : Value :=
  .list [.symbol "eval", .list [.symbol "read", .string source] false opened'] false opened

section

variable {m : Machine} (source : String) (opened opened' : Option Position)

theorem exec_expr_read {serial : Nat} (hread : m.resolve "read" = .ok (Builtin.read.toValue serial))
    (depth : Nat) :
    exec ((Level.ofDepth (depth + 2)).expr (.list [.symbol "read", .string source] false opened')) m =
      (.ok (Builtin.firstForm source), m) := by
  have hhead : exec ((Level.ofDepth (depth + 1)).expr (.symbol "read")) m =
      (.ok (Builtin.read.toValue serial), m) := exec_resolve hread
  change exec (located opened' ((Level.ofDepth (depth + 1)).run [.symbol "read", .string source])) m = _
  rw [exec_located, Level.run, exec_bind, hhead, continueWith_ok]
  rfl

variable (heval : m.resolve "eval" = .ok (.special .evaluation))
include heval

/-- Behind its head, the program is the operand of `eval`, one level deeper. -/
theorem exec_expr_evalRead (depth : Nat) :
    exec ((Level.ofDepth (depth + 2)).expr (evalRead source opened opened')) m =
      exec (located opened ((Level.ofDepth (depth + 1)).evaluation
        [.list [.symbol "read", .string source] false opened'])) m := by
  have hhead : exec ((Level.ofDepth (depth + 1)).expr (.symbol "eval")) m =
      (.ok (.special .evaluation), m) := exec_resolve heval
  change exec (located opened ((Level.ofDepth (depth + 1)).run _)) m = _
  rw [exec_located, exec_located, Level.run, exec_bind, hhead, continueWith_ok]
  rfl

theorem exceedsDepth_evalRead {depth : Nat} (h : depth < 3) :
    exceedsDepth (exec ((Level.ofDepth depth).expr (evalRead source opened opened')) m).1 = true := by
  match depth, h with
  | 0, _ => rfl
  | 1, _ => rfl
  | 2, _ =>
    rw [exec_expr_evalRead source opened opened' heval 0]
    rfl

theorem exec_evalRead {serial : Nat} (hread : m.resolve "read" = .ok (Builtin.read.toValue serial))
    (depth : Nat) {items : List Value} {quoted : Bool} {p : Option Position}
    (hform : Builtin.firstForm source = .list items quoted p) :
    exec ((Level.ofDepth (depth + 3)).expr (evalRead source opened opened')) m =
      exec (located opened (located p ((Level.ofDepth (depth + 2)).call items))) m := by
  rw [exec_expr_evalRead source opened opened' heval (depth + 1), exec_located, exec_located,
    Level.evaluation, exec_bind, exec_expr_read source opened' hread depth, continueWith_ok, hform]

end

/-- The two end alike but for positions: with the same value, or with errors of one kind and message; the
same is printed and drawn, and the same machine is left. -/
def Alike (r r' : Except Error Value × Machine) : Prop :=
  ((∃ v v', r.1 = .ok v ∧ r'.1 = .ok v' ∧ v.bare = v'.bare) ∨
    ∃ err err', r.1 = .error err ∧ r'.1 = .error err' ∧
      err.kind? = err'.kind? ∧ err.message = err'.message) ∧
  r.2.world = r'.2.world ∧ r.2.bare = r'.2.bare

theorem alike_call {m : Machine} (hblind : ∀ op ∈ m.hostOperations, Blind op) {items items' : List Value}
    (h : List.Forall₂ Similar items items') (depth : Nat) (p q : Option Position) :
    Alike (exec (located p (located q ((Level.ofDepth depth).call items))) m)
      (exec ((Level.ofDepth depth).call items') m) := by
  have hagrees := agrees_located p none (agrees_located q none ((Level.agrees_ofDepth depth).call h))
  obtain ⟨hout, htwins⟩ := hagrees m m ⟨rfl, hblind⟩
  rw [exec_located_none, exec_located_none] at hout htwins
  exact ⟨hout.value_or_error, htwins.world, htwins.bare⟩

/-- Print, read and eval. If nothing in a list is lost in reading it back, the program that reads its code
and evaluates what it has read meets the depth limit, or ends as evaluating the list as code does, but for
positions. Operations of the host may do anything but tell positions apart. -/
theorem eval_read_code {m : Machine} (heval : m.resolve "eval" = .ok (.special .evaluation))
    {serial : Nat} (hread : m.resolve "read" = .ok (Builtin.read.toValue serial))
    (hblind : ∀ op ∈ m.hostOperations, Blind op) {items : List Value} {quoted : Bool}
    {opened : Option Position} (hlist : Readable maxNesting (.list items quoted opened))
    (hexact : ¬ Contains Inexact (.list items quoted opened)) (depth : Nat) (p q : Option Position) :
    let program := evalRead (Value.list items quoted opened).code p q
    (exceedsDepth (exec ((Level.ofDepth depth).expr program) m).1 = true ∨
      Alike (exec ((Level.ofDepth depth).expr program) m)
        (exec ((Level.ofDepth depth).call items) m)) ∧
    (3 ≤ depth → Alike (exec ((Level.ofDepth depth).expr program) m)
      (exec ((Level.ofDepth (depth - 1)).call items) m)) := by
  intro program
  obtain ⟨items', o, hform, hsimilar⟩ : ∃ items' o,
      Builtin.firstForm (Value.list items quoted opened).code = .list items' quoted o ∧
        List.Forall₂ Similar items' items := by
    have hfirst := (firstForm_code hlist hexact).paired
    generalize Builtin.firstForm (Value.list items quoted opened).code = w at hfirst
    cases hfirst with
    | list _ o _ hitems => exact ⟨_, o, rfl, hitems⟩
  by_cases hdepth : depth < 3
  · exact ⟨Or.inl (exceedsDepth_evalRead _ p q heval hdepth), fun h => absurd hdepth (by omega)⟩
  · obtain ⟨n, rfl⟩ : ∃ n, depth = n + 3 := ⟨depth - 3, by omega⟩
    have hexec := exec_evalRead _ p q heval hread n hform
    rw [hexec]
    refine ⟨?_, fun _ => alike_call hblind hsimilar (n + 2) p o⟩
    -- where the limit is not met, one level more makes no difference
    cases hlimit : exceedsDepth (exec ((Level.ofDepth (n + 2)).call items') m).1 with
    | true =>
      left
      rw [exec_located, exec_located, exceedsDepth_mapError_orAt, exceedsDepth_mapError_orAt, hlimit]
    | false =>
      right
      have hmore := (Level.outlasts_ofDepth (Nat.le_succ (n + 2))).call items' m hlimit
      have hlocated : exec (located p (located o ((Level.ofDepth (n + 2)).call items'))) m =
          exec (located p (located o ((Level.ofDepth (n + 3)).call items'))) m := by
        rw [exec_located, exec_located, exec_located, exec_located, hmore]
      rw [hlocated]
      exact alike_call hblind hsimilar (n + 3) p o

/-- Data in the program, a text of a quote and a number: three levels are enough for `eval` and `read`,
and for the data one more. -/
theorem eval_read_code_data :
    let m := (Machine.new {} fun _ => 0).register Shell.sqrtFunction
    let items := [.symbol "do", Value.list [.string "\"", .number 0.5] true none]
    let program := evalRead (Value.list items false none).code none none
    m.resolve "eval" = .ok (.special .evaluation) ∧
    m.resolve "read" = .ok (Builtin.read.toValue 23) ∧
    (∀ op ∈ m.hostOperations, Blind op) ∧
    Readable maxNesting (.list items false none) ∧ ¬ Contains Inexact (.list items false none) ∧
    exceedsDepth (exec ((Level.ofDepth 3).expr program) m).1 = false ∧
    Alike (exec ((Level.ofDepth 3).expr program) m) (exec ((Level.ofDepth 3).call items) m) := by
  intro m items program
  have heval : m.resolve "eval" = .ok (.special .evaluation) := rfl
  have hread : m.resolve "read" = .ok (Builtin.read.toValue 23) := rfl
  have hblind : ∀ op ∈ m.hostOperations, Blind op := blind_new_register_sqrt _ _
  have hdata : Readable 127 (.list [.string "\"", .number 0.5] true none) :=
    .list true none (List.forall_mem_cons.2 ⟨.string _, List.forall_mem_singleton.2 (.number _)⟩)
  have hdo : Readable 127 (.symbol "do") :=
    .symbol (by simp [Unbroken, isBlank]) (by simp [SymbolStart])
  have hlist : Readable maxNesting (.list items false none) :=
    .list false none (List.forall_mem_cons.2 ⟨hdo, List.forall_mem_singleton.2 hdata⟩)
  have hnumber : ¬ Inexact (.number 0.5) := by
    intro h
    cases h with
    | named h =>
      cases h with
      | nan hx => exact absurd hx (by decide)
      | infinite hx => exact absurd hx (by decide)
    | negativeZero hx _ => exact absurd hx (by decide)
  have hexact : ¬ Contains Inexact (.list items false none) := by
    refine exact_list (List.forall_mem_cons.2 ⟨exact_atom (by decide) (by rintro ⟨⟨⟩⟩), ?_⟩)
    refine List.forall_mem_singleton.2 (exact_list (List.forall_mem_cons.2 ⟨?_, ?_⟩))
    · exact exact_atom (by decide) (by rintro ⟨⟨⟩⟩)
    · exact List.forall_mem_singleton.2 (exact_atom (by decide) hnumber)
  have hends : exceedsDepth (exec ((Level.ofDepth 3).expr program) m).1 = false := by
    decide +kernel
  obtain ⟨hlimit | halike, -⟩ :=
    eval_read_code heval hread hblind hlist hexact 3 none none
  · exact absurd (hends.symm.trans hlimit) Bool.false_ne_true
  · exact ⟨heval, hread, hblind, hlist, hexact, hends, halike⟩

theorem feedAll_openings {nesting n : Nat} {r : Reading} (hroom : r.frames.length ≤ nesting)
    (hn : nesting < r.frames.length + n) (p : Position) (cs : List Char) :
    ∃ e, Reading.feedAll nesting r (Token.all false (Glyph.place p (List.replicate n '(' ++ cs))) =
      .error e := by
  induction n generalizing r p with
  | zero => omega
  | succ n ih =>
    have hall : Token.all false (Glyph.place p (List.replicate (n + 1) '(' ++ cs)) =
        ⟨.opening false, p⟩ ::
          Token.all false (Glyph.place (p.next '(') (List.replicate n '(' ++ cs)) :=
      all_opener (.plain (o := ⟨'(', p⟩) rfl) _
    rw [hall, Reading.feedAll, Reading.feed]
    dsimp only
    by_cases hfull : nesting ≤ r.frames.length
    · exact ⟨_, by rw [if_pos hfull]⟩
    · rw [if_neg hfull]
      exact ih (by simp; omega) (by simp; omega) _

theorem firstForm_openings {source : String} {n : Nat} {cs : List Char}
    (hsource : source.toList = List.replicate n '(' ++ cs) (hn : maxNesting < n) :
    Builtin.firstForm source = .nil := by
  obtain ⟨e, he⟩ := feedAll_openings (r := {}) (Nat.zero_le maxNesting) (by simpa using hn) .start cs
  have hread : readForms {} source = .error e := by
    rw [readForms, formsOfTokens, Glyph.ofText, hsource, he]
  rw [Builtin.firstForm, hread]

theorem toList_code_nested (n : Nat) (v : Value) :
    ((fun v => Value.list [v] false none)^[n] v).code.toList =
      List.replicate n '(' ++ (v.code.toList ++ List.replicate n ')') := by
  induction n with
  | zero => simp
  | succ n ih =>
    rw [Function.iterate_succ_apply', code_list, codes_cons, codes_nil, Text.joined, String.toList_append,
      String.toList_append, ih, List.replicate_succ, List.replicate_succ']
    simp [openingText]

/-- A function of the host that answers with the line of a list tells what was read from what was not.
And what nests deeper than `read` reads is nil to it. -/
theorem eval_read_code_line :
    let m := (Machine.new {} fun _ => 0).register lineFunction
    let items := [.symbol "line-of", Value.list [.keyword "k"] true none]
    let deep := [(fun v => Value.list [v] false none)^[128] (.keyword "k")]
    let program (items : List Value) := evalRead (Value.list items false none).code none none
    m.resolve "eval" = .ok (.special .evaluation) ∧
    m.resolve "read" = .ok (Builtin.read.toValue 23) ∧
    Readable maxNesting (.list items false none) ∧ ¬ Contains Inexact (.list items false none) ∧
    (exec ((Level.ofDepth 4).expr (program items)) m).1 = .ok (.number 1) ∧
    (exec ((Level.ofDepth 4).call items) m).1 = .ok .nil ∧
    (exec ((Level.ofDepth 200).expr (program deep)) m).1 = .ok .nil ∧
    (exec ((Level.ofDepth 200).call deep) m).1 = .ok (.keyword "k") := by
  intro m items deep program
  have heval : m.resolve "eval" = .ok (.special .evaluation) := rfl
  have hread : m.resolve "read" = .ok (Builtin.read.toValue 23) := rfl
  have hname : Readable 127 (.symbol "line-of") :=
    .symbol (by simp [Unbroken, isBlank]) (by simp [SymbolStart])
  have hdata : Readable 127 (.list [.keyword "k"] true none) :=
    .list true none (List.forall_mem_singleton.2 (.keyword (by simp [Unbroken, isBlank])))
  have hcode : (Value.list items false none).code = "(line-of '(:k))" := by decide +kernel
  have hline : Builtin.firstForm (Value.list items false none).code =
      .list [.symbol "line-of", .list [.keyword "k"] true (some ⟨1, 10⟩)] false (some ⟨1, 1⟩) := by
    rw [hcode]
    decide +kernel
  have hdeep : Builtin.firstForm (Value.list deep false none).code = .nil := by
    have hcode := toList_code_nested 129 (.keyword "k")
    rw [Function.iterate_succ_apply'] at hcode
    exact firstForm_openings hcode (by decide)
  have hvalue : (exec ((Level.ofDepth 200).call deep) m).1 = .ok (.keyword "k") := by
    set_option maxRecDepth 4000 in rfl
  refine ⟨heval, hread, ?_, ?_, ?_, rfl, ?_, hvalue⟩
  · exact .list false none (List.forall_mem_cons.2 ⟨hname, List.forall_mem_singleton.2 hdata⟩)
  · refine exact_list (List.forall_mem_cons.2 ⟨exact_atom (by decide) (by rintro ⟨⟨⟩⟩), ?_⟩)
    refine List.forall_mem_singleton.2 (exact_list (List.forall_mem_singleton.2 ?_))
    exact exact_atom (by decide) (by rintro ⟨⟨⟩⟩)
  · rw [exec_evalRead _ none none heval hread 1 hline]
    rfl
  · rw [exec_expr_evalRead _ none none heval 198, exec_located_none, Level.evaluation, exec_bind,
      exec_expr_read _ none hread 197, continueWith_ok, hdeep]
    rfl

end MiniLisp
