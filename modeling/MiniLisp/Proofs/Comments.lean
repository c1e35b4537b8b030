import MiniLisp.Proofs.Layout

/-! Comments are white space. To read a text and skip its comments is to read, without knowing of
comments, the text that has a space in place of each character of a comment (`all_shown`). What counts is
what the reader takes for a comment; that is all from a semicolon to the end of the line, unless there is
a carriage return in it that does not belong to the newline (`marks_eq_of_clean`). -/

namespace MiniLisp

open Grammar

namespace Layout

def Mark.shown (m : Mark) : Glyph := if m.role = .comment then ⟨' ', m.position⟩ else m.toGlyph

section

variable (skips : List Glyph → Bool)

/-- The text with a space in place of each character of a comment. -/
def shown (mode : Mode) (gs : List Glyph) : List Glyph := (marks skips mode gs).map Mark.shown

def blanked (source : String) : String :=
  String.ofList (Token.chars (shown skips .between (Glyph.ofText source)))

theorem not_newline_of_comment {mode : Mode} {g : Glyph} {gs : List Glyph}
    (h : (step skips mode g gs).1 = .comment) : g.char ≠ '\n' := by
  intro hnewline
  have hstart : start skips g gs = (.blank, .between) := by simp [start, hnewline, isBlank]
  have hname : g.inName = false := by simp [Glyph.inName, Glyph.isDelimiter, hnewline, isBlank]
  have hnumber : g.inNumber = false := by simp [Glyph.inNumber, Glyph.isDigit, hnewline]
  cases mode <;> simp [step, hstart, hname, hnumber, hnewline] at h

theorem place_shown (mode : Mode) (p : Position) (cs : List Char) :
    Glyph.place p (Token.chars (shown skips mode (Glyph.place p cs))) =
      shown skips mode (Glyph.place p cs) := by
  induction cs generalizing mode p with
  | nil => rfl
  | cons c cs ih =>
    rw [Glyph.place, shown, marks, List.map_cons, ← shown, Token.chars, List.map_cons, ← Token.chars,
      Glyph.place, Mark.shown]
    split
    · rename_i hcomment
      have hnewline : c ≠ '\n' := not_newline_of_comment skips hcomment
      have hnext : p.next ' ' = p.next c := by simp [Position.next, hnewline]
      rw [hnext, ih]
    · rw [ih]

theorem ofText_blanked (source : String) :
    Glyph.ofText (blanked skips source) = shown skips .between (Glyph.ofText source) := by
  rw [blanked, Glyph.ofText, String.toList_ofList, Glyph.ofText, place_shown]

variable {skips}

theorem shown_of_marks {mode mode' : Mode} {gs rest : List Glyph} {ms : List Mark}
    (h : marks skips mode gs = ms ++ marks skips mode' rest) (hms : ∀ m ∈ ms, m.role ≠ .comment) :
    ∃ run, gs = run ++ rest ∧ shown skips mode gs = run ++ shown skips mode' rest := by
  have hglyphs := toGlyph_marks skips mode gs
  rw [h, List.map_append, toGlyph_marks] at hglyphs
  have hshown : ms.map Mark.shown = ms.map Mark.toGlyph :=
    List.map_congr_left fun m hm => if_neg (hms m hm)
  refine ⟨ms.map Mark.toGlyph, hglyphs.symm, ?_⟩
  rw [shown, h, List.map_append, hshown]
  rfl

theorem shown_cons {mode : Mode} {g : Glyph} {gs : List Glyph} {role : Role} {mode' : Mode}
    (h : step skips mode g gs = (role, mode')) (hrole : role ≠ .comment) :
    shown skips mode (g :: gs) = g :: shown skips mode' gs := by
  rw [shown, marks, h, List.map_cons, Mark.shown, if_neg hrole]
  rfl

theorem resumes_shown (gs : List Glyph) : Resumes gs (shown skips .between gs) := by
  cases gs with
  | nil => simp [Resumes, shown, marks]
  | cons g gs =>
    intro x hx
    obtain rfl : Mark.shown ⟨g, _⟩ = x := Option.some.inj hx
    rw [Mark.shown]
    split
    · exact Or.inr rfl
    · exact Or.inl rfl

/-! Strings. -/

def shownEnd (skips : List Glyph → Bool) : StringEnd → StringEnd
  | .closed rest => .closed (shown skips .between rest)
  | fin => fin

theorem stringBody_shown (gs : List Glyph) :
    Token.stringBody (shown skips .string gs) =
      ((Token.stringBody gs).1, shownEnd skips (Token.stringBody gs).2) := by
  fun_induction Token.stringBody gs with
  | case1 => rfl
  | case2 g gs hq =>
    have hstep : step skips .string g gs = (.unquote, .between) := by simp [step, hq]
    rw [shown_cons hstep (by simp), Token.stringBody.eq_def]
    simp [hq, shownEnd]
  | case3 g hq hb =>
    have hstep : step skips .string g [] = (.text, .escape) := by simp [step, hq, hb]
    rw [shown_cons hstep (by simp), Token.stringBody.eq_def]
    simp [hq, hb, shown, marks, shownEnd]
  | case4 g hq hb e gs c hc cs fin hs ih =>
    have hstep : step skips .string g (e :: gs) = (.text, .escape) := by simp [step, hq, hb]
    have hescape : step skips .escape e gs = (.escape, .string) := rfl
    rw [shown_cons hstep (by simp), shown_cons hescape (by simp), Token.stringBody.eq_def]
    simp [hq, hb, hc, ih, hs]
  | case5 g hq hb e gs hc =>
    have hstep : step skips .string g (e :: gs) = (.text, .escape) := by simp [step, hq, hb]
    have hescape : step skips .escape e gs = (.escape, .string) := rfl
    rw [shown_cons hstep (by simp), shown_cons hescape (by simp), Token.stringBody.eq_def]
    simp [hq, hb, hc, shownEnd]
  | case6 g gs hq hb cs fin hs ih =>
    have hstep : step skips .string g gs = (.text, .string) := by simp [step, hq, hb]
    rw [shown_cons hstep (by simp), Token.stringBody.eq_def]
    simp [hq, hb, ih, hs]

theorem ofString_shown (g : Glyph) (gs : List Glyph) :
    Token.ofString g (shown skips .string gs) =
      ((Token.ofString g gs).1, shown skips .between (Token.ofString g gs).2) := by
  rw [Token.ofString, stringBody_shown, Token.ofString]
  obtain ⟨cs, fin⟩ := Token.stringBody gs
  cases fin <;> rfl

end

/-! Tokens. -/

/-- The text has the same tokens if its comments are blanked out. -/
def Shows (comments : Bool) (gs : List Glyph) : Prop :=
  Token.all false (shown (skipped comments) .between gs) = Token.all comments gs

section

variable {comments : Bool} {g : Glyph} {gs : List Glyph}

theorem shows_blank (hg : isBlank g.char) (h : Shows comments gs) : Shows comments (g :: gs) := by
  have hstep : step (skipped comments) .between g gs = (.blank, .between) := by simp [step, start, hg]
  rw [Shows, shown_cons hstep (by simp), all_blank hg, all_blank hg, h]

theorem shows_comment {rest : List Glyph} (hc : comments = true) (hg : g.char = ';')
    (hafter : Token.afterComment gs = some rest) (h : Shows comments (lineEnd gs)) :
    Shows comments (g :: gs) := by
  have hspaces : ∀ x ∈ ((g :: gs.takeWhile (·.char != '\n')).map (Mark.mk · .comment)).map Mark.shown,
      isBlank x.char := by
    intro x hx
    obtain ⟨m, hm, rfl⟩ := List.mem_map.1 hx
    obtain ⟨y, -, rfl⟩ := List.mem_map.1 hm
    rfl
  rw [Shows, shown, marks_skipped hc hg hafter, List.map_append, all_blanks hspaces, all_comment hc hg hafter,
    all_lineEnd hafter]
  exact h

theorem shows_closing (hg : g.char = ')') (h : Shows comments gs) : Shows comments (g :: gs) := by
  have hstep : step (skipped comments) .between g gs = (.closing, .between) := by
    simp [step, start, hg, isBlank]
  rw [Shows, shown_cons hstep (by simp), all_closing hg, all_closing hg, h]

theorem shows_opening {os rest : List Glyph} {quoted : Bool} {opened : Position}
    (heq : g :: gs = os ++ rest) (ho : Opener os quoted opened) (h : Shows comments rest) :
    Shows comments (g :: gs) := by
  obtain ⟨m, ms, hmarks, hm, -, hms⟩ := marks_opener ho (skipped comments) rest
  have hroles : ∀ x ∈ m :: ms, x.role ≠ .comment :=
    List.forall_mem_cons.2 ⟨by simp [hm], fun x hx => by simp [hms x hx]⟩
  obtain ⟨run, hrun, hshown⟩ := shown_of_marks hmarks hroles
  obtain rfl : os = run := List.append_cancel_right hrun
  rw [Shows, heq, hshown, all_opener ho, all_opener ho, h]

section

variable (hblank : isBlank g.char = false)
  (hplain : comments = true → g.char = ';' → Token.afterComment gs = none)
include hblank hplain

theorem shows_atom {lexeme rest : List Glyph} {v : Value}
    (hof : Token.ofGlyphs g gs = (⟨.atom v, g.position⟩, rest)) (heq : g :: gs = lexeme ++ rest)
    (hb : ¬ Bracketed (g :: gs)) (ha : Atom lexeme v rest) (h : Shows comments rest) :
    Shows comments (g :: gs) := by
  obtain ⟨ms, hmarks, hms, -⟩ := atomic_of_atom heq hb (not_skipped hplain) ha
  obtain ⟨run, hrun, hshown⟩ := shown_of_marks hmarks fun m hm => (hms m hm).2
  have hresumes : Resumes rest (shown (skipped comments) .between rest) := resumes_shown rest
  obtain ⟨tail, htail, hof'⟩ := ofGlyphs_of_resumes heq hb ha hresumes
  have hlexeme : run = g :: tail := by
    rw [htail, ← List.cons_append] at hrun
    exact (List.append_cancel_right hrun).symm
  rw [Shows, hshown, hlexeme, List.cons_append, all_token hblank, hof', all_ofGlyphs hblank hplain, hof, h]

theorem shows_fault {f : ReadFault} {p : Position}
    (hof : Token.ofGlyphs g gs = (⟨.fault f, p⟩, [])) : Shows comments (g :: gs) := by
  have hq : g.char = '"' := char_of_fault hof
  have hstring (more : List Glyph) : Token.ofGlyphs g more = Token.ofString g more :=
    ofGlyphs_string (by simp [Bracketed, hq]) hq
  have hstep : step (skipped comments) .between g gs = (.quote, .string) := by
    simp [step, start, hq, isBlank]
  rw [Shows, shown_cons hstep (by simp), all_token hblank, all_ofGlyphs hblank hplain, hstring, hof,
    ofString_shown, ← hstring, hof]
  simp [shown, marks, Token.all]

end

end

/-- No token is changed by blanking out comments. The induction is on the length of what is left, of which
each step of the scan takes some. -/
theorem all_shown (comments : Bool) (gs : List Glyph) :
    Token.all false (shown (skipped comments) .between gs) = Token.all comments gs := by
  induction hn : gs.length using Nat.strongRecOn generalizing gs with
  | ind n ih =>
    subst hn
    have hrest {rest : List Glyph} (hlength : rest.length < gs.length) : Shows comments rest :=
      ih rest.length hlength rest rfl
    cases gs with
    | nil => rw [shown, marks, List.map_nil, Token.all, Token.all]
    | cons g gs =>
      cases begins comments g gs with
      | blank hblank => exact shows_blank hblank (hrest (Nat.lt_succ_self _))
      | comment hc hg hafter => exact shows_comment hc hg hafter (hrest (length_lineEnd_lt g gs))
      | closing hg => exact shows_closing hg (hrest (Nat.lt_succ_self _))
      | opening heq ho => exact shows_opening heq ho (hrest (length_lt_of_append heq (opener_ne_nil ho)))
      | atom hblank hplain hof heq hb ha =>
        exact shows_atom hblank hplain hof heq hb ha (hrest (length_lt_of_append heq (atom_ne_nil ha)))
      | fault hblank hplain hof => exact shows_fault hblank hplain hof

/-! Comments that go to the end of the line. -/

/-- Any semicolon at a token boundary starts a comment. -/
def always (_ : List Glyph) : Bool := true

/-- A newline follows each carriage return in a comment. -/
def clean : List Mark → Bool
  | [] => true
  | m :: ms => (m.role != .comment || m.char != '\r' || ms.head?.any (·.char == '\n')) && clean ms

theorem not_broken_of_clean {skips : List Glyph → Bool} {gs : List Glyph}
    (h : clean (marks skips .comment gs)) : broken gs = false := by
  induction gs with
  | nil => rfl
  | cons g gs ih =>
    rw [broken]
    split
    · rfl
    · rename_i hnewline
      have hstep : step skips .comment g gs = (.comment, .comment) := if_neg hnewline
      have hhead : (marks skips .comment gs).head?.any (·.char == '\n') = gs.head?.any (·.char == '\n') := by
        cases gs <;> rfl
      rw [marks, hstep, clean, hhead, Bool.and_eq_true] at h
      split
      · rename_i hreturn
        simpa [beq_iff_eq.1 hreturn] using h.1
      · exact ih h.2

theorem start_eq_of_clean {g : Glyph} {gs : List Glyph}
    (h : start always g gs = (.comment, .comment) → broken gs = false) :
    start always g gs = start (skipped true) g gs := by
  by_cases hg : g.char = ';'
  · have hstart : start always g gs = (.comment, .comment) := by simp [start, hg, isBlank, always]
    simp [start, hg, isBlank, always, skipped, h hstart]
  · simp [start, hg]

theorem step_eq_of_clean {mode : Mode} {g : Glyph} {gs : List Glyph}
    (h : step always mode g gs = (.comment, .comment) → broken gs = false) :
    step always mode g gs = step (skipped true) mode g gs := by
  cases mode with
  | between => exact start_eq_of_clean h
  | number =>
    rw [step] at h ⊢
    rw [step]
    split
    · rfl
    · rename_i hnumber
      exact start_eq_of_clean (by rwa [if_neg hnumber] at h)
  | name =>
    rw [step] at h ⊢
    rw [step]
    split
    · rfl
    · rename_i hname
      exact start_eq_of_clean (by rwa [if_neg hname] at h)
  | _ => rfl

/-- If no carriage return stands alone in a comment, the reader takes all those for comments that go from
a semicolon to the end of the line. -/
theorem marks_eq_of_clean {mode : Mode} {gs : List Glyph} (h : clean (marks always mode gs)) :
    marks always mode gs = marks (skipped true) mode gs := by
  induction gs generalizing mode with
  | nil => rfl
  | cons g gs ih =>
    rw [marks, clean, Bool.and_eq_true] at h
    have hstep : step always mode g gs = step (skipped true) mode g gs := by
      refine step_eq_of_clean fun hcomment => ?_
      rw [hcomment] at h
      exact not_broken_of_clean h.2
    rw [marks, ih h.2, marks, hstep]

end Layout

open Layout

/-- Comments are white space: to read a text with comments is to read it without, with a space in place of
each character of a comment. What the reader takes for a comment goes to the end of the line wherever a
newline follows each carriage return in it. -/
theorem readForms_blanked (nesting : Nat) (source : String) :
    readForms ⟨true, nesting⟩ source = readForms ⟨false, nesting⟩ (blanked (skipped true) source) ∧
    (clean (marks always .between (Glyph.ofText source)) →
      readForms ⟨true, nesting⟩ source = readForms ⟨false, nesting⟩ (blanked always source)) := by
  have hread : readForms ⟨true, nesting⟩ source =
      readForms ⟨false, nesting⟩ (blanked (skipped true) source) := by
    rw [readForms, readForms, ofText_blanked, all_shown]
  refine ⟨hread, fun hclean => ?_⟩
  rw [hread, blanked, blanked, shown, shown, marks_eq_of_clean hclean]

/-- A comment before a carriage return and a newline, semicolons in a string and in a symbol, and a
comment right behind a number. -/
theorem readForms_blanked_mixed :
    blanked always "(a;b ; )\r\n\";\" 1;c" = "(a;b     \n\";\" 1  " ∧
    readForms ⟨true, 2⟩ "(a;b ; )\r\n\";\" 1;c" =
      readForms ⟨false, 2⟩ (blanked always "(a;b ; )\r\n\";\" 1;c") := by
  have hclean : clean (marks always .between (Glyph.ofText "(a;b ; )\r\n\";\" 1;c")) := by decide +kernel
  exact ⟨by decide +kernel, (readForms_blanked 2 _).2 hclean⟩

/-- Where a carriage return stands alone, the text up to the end of the line is no comment. -/
theorem readForms_lone_return :
    readForms ⟨true, 128⟩ ";\rx" = .ok [.symbol ";", .symbol "x"] ∧
    blanked always ";\rx" = "   " ∧ readForms ⟨false, 128⟩ (blanked always ";\rx") = .ok [] := by
  refine ⟨by decide +kernel, by decide +kernel, by decide +kernel⟩

end MiniLisp
