import MiniLisp.Proofs.Extension

/-! What each character of a text is. The text is gone over from left to right, one character at a time;
a mode remembers what the characters so far have left open, be it a string, a comment or a name. This
gives each character its role, and so tells the parentheses that count from those in strings and
comments (`marks`). The scan for tokens goes over the same text in longer steps, and each of its steps
is a stretch of roles (`scanned`). -/

namespace MiniLisp.Layout

open Grammar

/-- What a character of a text is. -/
inductive Role where
  | blank
  /-- The first character of what starts a list: a parenthesis, or the quote before it. -/
  | opening (quoted : Bool)
  /-- The parenthesis behind the quote of a quoted list. -/
  | opened
  | closing
  /-- Part of a number, a keyword or a symbol. -/
  | atom
  /-- The double quote that starts a string. -/
  | quote
  /-- Part of a string, a backslash too. -/
  | text
  /-- The character behind a backslash in a string. -/
  | escape
  /-- The double quote that ends a string. -/
  | unquote
  | comment
deriving DecidableEq

/-- What the characters so far have left open. -/
inductive Mode where
  | between | opening | number | name | string | escape | comment

/-- A character of a text, where it stands, and what it is. -/
structure Mark extends Glyph where
  role : Role
deriving DecidableEq

/-- A carriage return stands on the line, other than right before the newline that ends it. -/
def broken : List Glyph → Bool
  | [] => false
  | g :: gs =>
    if g.char == '\n' then false
    else if g.char == '\r' then !gs.head?.any (·.char == '\n')
    else broken gs

section

variable (skips : List Glyph → Bool)

/-- A character at a token boundary. A semicolon starts a comment if `skips` holds of what follows it. -/
def start (g : Glyph) (gs : List Glyph) : Role × Mode :=
  if isBlank g.char then (.blank, .between)
  else if g.char == ')' then (.closing, .between)
  else if g.char == '(' then (.opening false, .between)
  else if g.char == '\x27' && gs.head?.any (·.char == '(') then (.opening true, .opening)
  else if g.char == '"' then (.quote, .string)
  else if g.char == ';' && skips gs then (.comment, .comment)
  else if g.isDigit || g.char == '-' && gs.head?.any Glyph.isDigit then (.atom, .number)
  else (.atom, .name)

def step (mode : Mode) (g : Glyph) (gs : List Glyph) : Role × Mode :=
  match mode with
  | .between => start skips g gs
  | .opening => (.opened, .between)
  | .number => if g.inNumber then (.atom, .number) else start skips g gs
  | .name => if g.inName then (.atom, .name) else start skips g gs
  | .string =>
    if g.char == '"' then (.unquote, .between)
    else if g.char == '\\' then (.text, .escape)
    else (.text, .string)
  | .escape => (.escape, .string)
  | .comment => if g.char == '\n' then (.blank, .between) else (.comment, .comment)

def marks (mode : Mode) : List Glyph → List Mark
  | [] => []
  | g :: gs => ⟨g, (step skips mode g gs).1⟩ :: marks (step skips mode g gs).2 gs

end

/-- Where the reader takes a semicolon for the start of a comment: if it reads comments, and the line is
not broken. -/
def skipped (comments : Bool) (gs : List Glyph) : Bool := comments && !broken gs

/-- The text as the reader sees it. -/
def ofText (comments : Bool) (source : String) : List Mark :=
  marks (skipped comments) .between (Glyph.ofText source)

theorem toGlyph_marks (skips : List Glyph → Bool) (mode : Mode) (gs : List Glyph) :
    (marks skips mode gs).map Mark.toGlyph = gs := by
  induction gs generalizing mode with
  | nil => rfl
  | cons g gs ih => rw [marks, List.map_cons, ih]

/-! Comments. -/

theorem afterComment_cons (g : Glyph) (gs : List Glyph) :
    Token.afterComment (g :: gs) =
      if g.char == '\n' then some (g :: gs)
      else if g.char == '\r' then
        if gs.head?.any (·.char == '\n') then some (g :: gs) else none
      else Token.afterComment gs := by
  unfold Token.afterComment
  rw [List.dropWhile_cons]
  by_cases hnewline : g.char = '\n'
  · simp [Glyph.isLineEnd, hnewline]
  by_cases hreturn : g.char = '\r'
  · simp [Glyph.isLineEnd, hreturn]
  · simp [Glyph.isLineEnd, hnewline, hreturn]

theorem afterComment_isSome (gs : List Glyph) : (Token.afterComment gs).isSome = !broken gs := by
  induction gs with
  | nil => rfl
  | cons g gs ih =>
    rw [afterComment_cons, broken]
    split_ifs <;> simp_all

def lineEnd (gs : List Glyph) : List Glyph := gs.dropWhile (·.char != '\n')

theorem all_lineEnd {comments : Bool} {gs rest : List Glyph} (h : Token.afterComment gs = some rest) :
    Token.all comments rest = Token.all comments (lineEnd gs) := by
  induction gs with
  | nil =>
    cases h
    rfl
  | cons g gs ih =>
    rw [afterComment_cons] at h
    rw [lineEnd, List.dropWhile_cons]
    split_ifs at h with hnewline hreturn hnext
    · cases h
      simp [beq_iff_eq.1 hnewline]
    · cases h
      have hblank : isBlank g.char := by simp [beq_iff_eq.1 hreturn, isBlank]
      obtain ⟨n, hhead, hn⟩ := (Option.any_eq_true _ _).1 hnext
      obtain ⟨more, rfl⟩ := List.head?_eq_some_iff.1 hhead
      rw [all_blank hblank, if_pos (by simpa using hnewline), List.dropWhile_cons,
        if_neg (by simpa using hn)]
    · rw [if_pos (by simpa using hnewline)]
      exact ih h

/-! Stretches of text. -/

/-- The characters that an escape sequence may have behind its backslash. -/
def letters : List Char := ['n', 't', '\\', '"']

theorem unescape_eq_none_iff {c : Char} : Token.unescape c = none ↔ c ∉ letters := by
  unfold Token.unescape letters
  split_ifs <;> simp_all

/-- How a character changes the number of open lists. -/
def Role.weight : Role → Int
  | opening _ => 1
  | closing => -1
  | _ => 0

/-- The character neither opens nor closes a list, and spoils no escape sequence. -/
def Quiet (m : Mark) : Prop := m.role.weight = 0 ∧ (m.role = .escape → m.char ∈ letters)

/-- The character belongs to the text of a string, and spoils no escape sequence. -/
def Inside (m : Mark) : Prop := m.role = .text ∨ m.role = .escape ∧ m.char ∈ letters

/-- The text does not end within a string. -/
def Outside (ms : List Mark) : Prop :=
  ∀ m ∈ ms.getLast?, m.role ≠ .quote ∧ m.role ≠ .text ∧ m.role ≠ .escape

theorem Inside.quiet {m : Mark} (h : Inside m) : Quiet m := by
  rcases h with h | ⟨h, hletter⟩
  · simp [Quiet, h, Role.weight]
  · simp [Quiet, h, Role.weight, hletter]

theorem Inside.not_comment {m : Mark} (h : Inside m) : m.role ≠ .comment := by
  rcases h with h | ⟨h, -⟩ <;> simp [h]

theorem outside_of_forall {ms : List Mark}
    (h : ∀ m ∈ ms, m.role ≠ .quote ∧ m.role ≠ .text ∧ m.role ≠ .escape) : Outside ms :=
  fun m hm => h m (List.mem_of_getLast? hm)

theorem outside_concat (ms : List Mark) {m : Mark}
    (h : m.role ≠ .quote ∧ m.role ≠ .text ∧ m.role ≠ .escape) : Outside (ms ++ [m]) := by
  intro x hx
  rw [List.getLast?_concat] at hx
  cases hx
  exact h

section

variable {skips : List Glyph → Bool}

/-- A run of characters that all have one role and leave the mode as it is. -/
theorem marks_run {mode : Mode} {role : Role} {run : List Glyph}
    (hrun : ∀ g ∈ run, ∀ gs, step skips mode g gs = (role, mode)) (rest : List Glyph) :
    marks skips mode (run ++ rest) = run.map (Mark.mk · role) ++ marks skips mode rest := by
  induction run with
  | nil => rfl
  | cons g run ih =>
    obtain ⟨hg, hrun⟩ := List.forall_mem_cons.1 hrun
    rw [List.cons_append, marks, hg, ih hrun]
    rfl

theorem marks_of_step {mode : Mode} {rest : List Glyph}
    (h : ∀ g gs, rest = g :: gs → step skips mode g gs = start skips g gs) :
    marks skips mode rest = marks skips .between rest := by
  cases rest with
  | nil => rfl
  | cons g gs =>
    rw [marks, h g gs rfl]
    rfl

theorem marks_number {run rest : List Glyph} (hrun : ∀ g ∈ run, g.inNumber)
    (hrest : Stops Glyph.inNumber rest) :
    marks skips .number (run ++ rest) = run.map (Mark.mk · .atom) ++ marks skips .between rest := by
  have hstep : ∀ g ∈ run, ∀ gs, step skips .number g gs = (.atom, .number) :=
    fun g hg gs => if_pos (hrun g hg)
  rw [marks_run hstep, marks_of_step]
  rintro g gs rfl
  exact if_neg (by simp [hrest g rfl])

theorem marks_name {run rest : List Glyph} (hrun : ∀ g ∈ run, g.inName)
    (hrest : Stops Glyph.inName rest) :
    marks skips .name (run ++ rest) = run.map (Mark.mk · .atom) ++ marks skips .between rest := by
  have hstep : ∀ g ∈ run, ∀ gs, step skips .name g gs = (.atom, .name) :=
    fun g hg gs => if_pos (hrun g hg)
  rw [marks_run hstep, marks_of_step]
  rintro g gs rfl
  exact if_neg (by simp [hrest g rfl])

theorem marks_comment (gs : List Glyph) :
    marks skips .comment gs =
      (gs.takeWhile (·.char != '\n')).map (Mark.mk · .comment) ++ marks skips .between (lineEnd gs) := by
  have hrun : ∀ g ∈ gs.takeWhile (·.char != '\n'), ∀ more,
      step skips .comment g more = (.comment, .comment) := by
    intro g hg more
    have hne := List.mem_takeWhile_imp hg
    exact if_neg (by simpa using hne)
  have hsplit : marks skips .comment gs =
      marks skips .comment (gs.takeWhile (·.char != '\n') ++ lineEnd gs) := by
    rw [lineEnd, List.takeWhile_append_dropWhile]
  rw [hsplit, marks_run hrun, marks_of_step]
  intro g more hend
  have hhead := stops_dropWhile (·.char != '\n') gs g (by rw [← lineEnd, hend]; rfl)
  have hnewline : g.char = '\n' := by simpa using hhead
  simp [step, start, hnewline, isBlank]

/-- How a string goes on behind its opening quote: it is closed, the text ends, or an escape sequence is
none. -/
inductive Literal (skips : List Glyph → Bool) (gs : List Glyph) : StringEnd → Prop
  | closed (ms : List Mark) (c : Glyph) {rest : List Glyph} : (∀ m ∈ ms, Inside m) →
    marks skips .string gs = ms ++ ⟨c, .unquote⟩ :: marks skips .between rest →
    Literal skips gs (.closed rest)
  | cut : (∀ m ∈ marks skips .string gs, Inside m) → Literal skips gs .cut
  | escape (ms : List Mark) {after : List Mark} {e : Glyph} : (∀ m ∈ ms, Inside m) → e.char ∉ letters →
    marks skips .string gs = ms ++ ⟨e, .escape⟩ :: after → Literal skips gs (.escape e)

theorem Literal.behind {gs more : List Glyph} {fin : StringEnd} (ms : List Mark)
    (hms : ∀ m ∈ ms, Inside m) (heq : marks skips .string more = ms ++ marks skips .string gs)
    (h : Literal skips gs fin) : Literal skips more fin := by
  have hin {ns : List Mark} (hns : ∀ m ∈ ns, Inside m) : ∀ m ∈ ms ++ ns, Inside m :=
    fun m hm => (List.mem_append.1 hm).elim (hms m) (hns m)
  cases h with
  | closed ns c hns hmarks => exact .closed (ms ++ ns) c (hin hns) (by rw [heq, hmarks, List.append_assoc])
  | cut hns => exact .cut (by rw [heq]; exact hin hns)
  | escape ns hns he hmarks => exact .escape (ms ++ ns) (hin hns) he (by rw [heq, hmarks, List.append_assoc])

theorem literal (gs : List Glyph) : Literal skips gs (Token.stringBody gs).2 := by
  fun_induction Token.stringBody gs with
  | case1 => exact .cut (by simp [marks])
  | case2 g gs hq => exact .closed [] g (by simp) (by simp [marks, step, hq])
  | case3 g hq hb => exact .cut (by simp [marks, step, hq, hb, Inside])
  | case4 g hq hb e gs c hc cs fin hs ih =>
    have he : e.char ∈ letters := by
      by_contra hnot
      simp [unescape_eq_none_iff.2 hnot] at hc
    rw [hs] at ih
    refine ih.behind [⟨g, .text⟩, ⟨e, .escape⟩] ?_ ?_
    · simp [Inside, he]
    · simp [marks, step, hq, hb]
  | case5 g hq hb e gs hc =>
    exact .escape [⟨g, .text⟩] (by simp [Inside]) (unescape_eq_none_iff.1 hc)
      (by simp [marks, step, hq, hb]; rfl)
  | case6 g gs hq hb cs fin hs ih =>
    rw [hs] at ih
    refine ih.behind [⟨g, .text⟩] ?_ ?_
    · simp [Inside]
    · simp [marks, step, hq, hb]

theorem start_number {g : Glyph} {gs : List Glyph} (h : NumberStart (g :: gs)) :
    start skips g gs = (.atom, .number) := by
  have hnumber : (g.isDigit || g.char == '-' && gs.head?.any Glyph.isDigit) = true :=
    startsNumber_iff.2 h
  have hblank : isBlank g.char = false := by
    rcases h with hd | ⟨hg, -⟩
    · exact not_isBlank_of_isDigit hd
    · rw [hg]
      rfl
  have hother : g.char ≠ ')' ∧ g.char ≠ '(' ∧ g.char ≠ '\x27' ∧ g.char ≠ '"' ∧ g.char ≠ ';' := by
    rcases h with hd | ⟨hg, -⟩
    · refine ⟨?_, ?_, ?_, ?_, ?_⟩ <;> intro heq <;> simp [Glyph.isDigit, heq] at hd
    · simp [hg]
  simp [start, hnumber, hblank, hother]

theorem start_name {g : Glyph} {gs : List Glyph} (hname : g.inName) (hb : ¬ Bracketed (g :: gs))
    (hnumber : ¬ NumberStart (g :: gs)) (hstring : g.char ≠ '"') (hskip : g.char = ';' → skips gs = false) :
    start skips g gs = (.atom, .name) := by
  obtain ⟨hblank, hopen, hclose⟩ := inName_iff.1 hname
  have hquote : (g.char == '\x27' && gs.head?.any (·.char == '(')) = false := by
    rw [bracketed_iff, not_or, not_or] at hb
    exact Bool.eq_false_iff.2 hb.2.2
  have hcomment : (g.char == ';' && skips gs) = false := by
    by_cases hg : g.char = ';'
    · simp [hskip hg]
    · simp [hg]
  have hnumber : (g.isDigit || g.char == '-' && gs.head?.any Glyph.isDigit) = false :=
    Bool.eq_false_iff.2 (mt startsNumber_iff.1 hnumber)
  simp only [start, hblank, beq_iff_eq, hclose, hopen, hquote, hstring, hcomment, hnumber]
  rfl

end

/-- A stretch of text that has been gone over, with the token in it, if there is one. -/
inductive Stretch : List Token → List Mark → Prop
  | skip {ms : List Mark} : (∀ m ∈ ms, Quiet m) → Outside ms → Stretch [] ms
  | atom {gs rest : List Glyph} {v : Value} {p : Position} {ms : List Mark} : Atom gs v rest →
    (∀ m ∈ ms, Quiet m) → Outside ms → Stretch [⟨.atom v, p⟩] ms
  | opening {quoted : Bool} (m : Mark) (ms : List Mark) : m.role = .opening quoted →
    (∀ x ∈ ms, Quiet x) → Outside (m :: ms) → Stretch [⟨.opening quoted, m.position⟩] (m :: ms)
  | closing {m : Mark} : m.role = .closing → Stretch [⟨.closing, m.position⟩] [m]

/-- The first step of the scan over a text and its characters: a stretch, before the rest; a string that
the end of the text cuts; or a character that spoils an escape sequence. -/
inductive Scanned (comments : Bool) (gs : List Glyph) : Prop
  | stretch (ts : List Token) (ms : List Mark) (rest : List Glyph) : rest.length < gs.length →
    Token.all comments gs = ts ++ Token.all comments rest →
    marks (skipped comments) .between gs = ms ++ marks (skipped comments) .between rest →
    Stretch ts ms → Scanned comments gs
  | cut (m : Mark) (ms : List Mark) :
    Token.all comments gs = [⟨.fault .unterminatedString, m.position⟩] → m.role = .quote →
    (∀ x ∈ ms, Inside x) → marks (skipped comments) .between gs = m :: ms → Scanned comments gs
  | refused (before : List Mark) (m : Mark) (after : List Mark) :
    Token.all comments gs = [⟨.fault (.badEscape m.char), m.position⟩] → (∀ x ∈ before, Quiet x) →
    m.role = .escape → m.char ∉ letters →
    marks (skipped comments) .between gs = before ++ m :: after → Scanned comments gs

theorem quiet_of_role {role : Role} {ms : List Mark} (hall : ∀ m ∈ ms, m.role = role)
    (hweight : role.weight = 0) (hescape : role ≠ .escape) : ∀ m ∈ ms, Quiet m := by
  intro m hm
  rw [Quiet, hall m hm]
  exact ⟨hweight, fun h => absurd h hescape⟩

def Atomic (skips : List Glyph → Bool) (gs rest : List Glyph) : Prop :=
  ∃ ms, marks skips .between gs = ms ++ marks skips .between rest ∧
    (∀ m ∈ ms, Quiet m ∧ m.role ≠ .comment) ∧ Outside ms

section

variable {skips : List Glyph → Bool}

theorem atomic_of_run {gs run rest : List Glyph}
    (h : marks skips .between gs = run.map (Mark.mk · .atom) ++ marks skips .between rest) :
    Atomic skips gs rest := by
  have hall : ∀ m ∈ run.map (Mark.mk · .atom), m.role = .atom := by simp
  refine ⟨_, h, fun m hm => ⟨quiet_of_role hall rfl (by simp) m hm, by simp [hall m hm]⟩, ?_⟩
  exact outside_of_forall fun m hm => by simp [hall m hm]

theorem atomic_number {g : Glyph} {run rest : List Glyph} (h : NumberStart (g :: (run ++ rest)))
    (hrun : ∀ x ∈ run, x.inNumber) (hrest : Stops Glyph.inNumber rest) :
    Atomic skips (g :: (run ++ rest)) rest := by
  have hmarks : marks skips .between (g :: (run ++ rest)) =
      (g :: run).map (Mark.mk · .atom) ++ marks skips .between rest := by
    rw [marks, step, start_number h, marks_number hrun hrest]
    rfl
  exact atomic_of_run hmarks

theorem atomic_name {g : Glyph} {run rest : List Glyph}
    (h : start skips g (run ++ rest) = (.atom, .name)) (hrun : ∀ x ∈ run, x.inName)
    (hrest : Stops Glyph.inName rest) : Atomic skips (g :: (run ++ rest)) rest := by
  have hmarks : marks skips .between (g :: (run ++ rest)) =
      (g :: run).map (Mark.mk · .atom) ++ marks skips .between rest := by
    rw [marks, step, h, marks_name hrun hrest]
    rfl
  exact atomic_of_run hmarks

theorem marks_quote {q : Glyph} (hq : q.char = '"') (gs : List Glyph) :
    marks skips .between (q :: gs) = ⟨q, .quote⟩ :: marks skips .string gs := by
  simp [marks, step, start, hq, isBlank]

theorem marks_opener {os : List Glyph} {quoted : Bool} {opened : Position} (h : Opener os quoted opened)
    (skips : List Glyph → Bool) (rest : List Glyph) :
    ∃ m ms, marks skips .between (os ++ rest) = m :: ms ++ marks skips .between rest ∧
      m.role = .opening quoted ∧ m.position = opened ∧ ∀ x ∈ ms, x.role = .opened := by
  cases h with
  | @plain o ho =>
    refine ⟨⟨o, .opening false⟩, [], ?_, rfl, rfl, by simp⟩
    simp [marks, step, start, ho, isBlank]
  | @quoted q o hq ho =>
    refine ⟨⟨q, .opening true⟩, [⟨o, .opened⟩], ?_, rfl, rfl, by simp⟩
    simp [marks, step, start, hq, ho, isBlank]

theorem atomic_string {q : Glyph} {gs rest : List Glyph} {cs : List Char} (hq : q.char = '"')
    (h : Token.stringBody gs = (cs, .closed rest)) : Atomic skips (q :: gs) rest := by
  have hliteral : Literal skips gs (Token.stringBody gs).2 := literal gs
  rw [h] at hliteral
  cases hliteral with
  | closed ms c hms hmarks =>
    refine ⟨⟨q, .quote⟩ :: ms ++ [⟨c, .unquote⟩], ?_, ?_, ?_⟩
    · rw [marks_quote hq, hmarks]
      simp
    · intro m hm
      simp only [List.cons_append, List.mem_cons, List.mem_append, List.not_mem_nil, or_false] at hm
      rcases hm with rfl | hm | rfl
      · simp [Quiet, Role.weight]
      · exact ⟨(hms m hm).quiet, (hms m hm).not_comment⟩
      · simp [Quiet, Role.weight]
    · exact outside_concat _ (by simp)

theorem atomic_of_atom {g : Glyph} {gs lexeme rest : List Glyph} {v : Value}
    (heq : g :: gs = lexeme ++ rest) (hb : ¬ Bracketed (g :: gs))
    (hskip : g.char = ';' → skips gs = false) (h : Atom lexeme v rest) : Atomic skips (g :: gs) rest := by
  cases h with
  | @number sign run _ d hsign hd hrun hstop =>
    rcases hsign with rfl | ⟨m, rfl, hm⟩
    · obtain ⟨rfl, rfl⟩ := List.cons.inj heq
      exact atomic_number (Or.inl hd) hrun hstop
    · obtain ⟨rfl, rfl⟩ := List.cons.inj heq
      have hrun' : ∀ x ∈ d :: run, x.inNumber :=
        List.forall_mem_cons.2 ⟨by simp [Glyph.inNumber, hd], hrun⟩
      exact atomic_number (Or.inr ⟨hm, d, rfl, hd⟩) hrun' hstop
  | @string q c body _ cs hq hbody hc =>
    have hs : Token.stringBody (body ++ c :: rest) = (cs, .closed rest) := stringBody_of_quoted hbody hc
    have htext : q :: body ++ [c] ++ rest = q :: (body ++ c :: rest) := by simp
    rw [heq, htext]
    exact atomic_string hq hs
  | @keyword _ run _ hg hne hrun hstop =>
    obtain ⟨rfl, rfl⟩ := List.cons.inj heq
    refine atomic_name (start_name ?_ hb ?_ (by simp [hg]) hskip) hrun hstop
    · simp [Glyph.inName, Glyph.isDelimiter, hg, isBlank]
    · simp [NumberStart, Glyph.isDigit, hg]
  | symbol hne hrun hstop hnumber hstring hkeyword =>
    obtain ⟨x, run, rfl⟩ := List.exists_cons_of_ne_nil hne
    obtain ⟨rfl, rfl⟩ := List.cons.inj heq
    obtain ⟨hname, hrun⟩ := List.forall_mem_cons.1 hrun
    exact atomic_name (start_name hname hb hnumber (hstring g rfl) hskip) hrun hstop

end

/-! Steps of the scan. -/

section

variable {comments : Bool} {g : Glyph} {gs : List Glyph}

theorem scanned_blank (h : isBlank g.char) : Scanned comments (g :: gs) := by
  refine .stretch [] [⟨g, .blank⟩] gs (by simp) (all_blank h gs) ?_ (.skip ?_ ?_)
  · simp [marks, step, start, h]
  · simp [Quiet, Role.weight]
  · simp [Outside]

theorem marks_skipped {rest : List Glyph} (hc : comments = true) (hg : g.char = ';')
    (h : Token.afterComment gs = some rest) :
    marks (skipped comments) .between (g :: gs) =
      (g :: gs.takeWhile (·.char != '\n')).map (Mark.mk · .comment) ++
        marks (skipped comments) .between (lineEnd gs) := by
  have hskip : skipped comments gs = true := by
    rw [skipped, ← afterComment_isSome, h, hc]
    rfl
  have hstart : start (skipped comments) g gs = (.comment, .comment) := by
    simp [start, hg, hskip, isBlank]
  rw [marks, step, hstart, marks_comment]
  rfl

theorem length_lineEnd_lt (g : Glyph) (gs : List Glyph) : (lineEnd gs).length < (g :: gs).length :=
  Nat.lt_succ_of_le (List.dropWhile_suffix _).length_le

theorem scanned_comment {rest : List Glyph} (hc : comments = true) (hg : g.char = ';')
    (h : Token.afterComment gs = some rest) : Scanned comments (g :: gs) := by
  have hall : ∀ m ∈ (g :: gs.takeWhile (·.char != '\n')).map (Mark.mk · .comment),
      m.role = .comment := by simp
  refine .stretch [] _ (lineEnd gs) (length_lineEnd_lt g gs) ?_ (marks_skipped hc hg h)
    (.skip (quiet_of_role hall rfl (by simp)) ?_)
  · rw [all_comment hc hg h, all_lineEnd h]
    rfl
  · exact outside_of_forall fun m hm => by simp [hall m hm]

theorem scanned_opening {os rest : List Glyph} {quoted : Bool} {opened : Position}
    (heq : g :: gs = os ++ rest) (h : Opener os quoted opened) : Scanned comments (g :: gs) := by
  obtain ⟨m, ms, hmarks, hm, rfl, hms⟩ := marks_opener h (skipped comments) rest
  have hall : Token.all comments (g :: gs) = [⟨.opening quoted, m.position⟩] ++ Token.all comments rest := by
    rw [heq, all_opener h]
    rfl
  have houtside : Outside (m :: ms) := by
    refine outside_of_forall fun x hx => ?_
    rcases List.mem_cons.1 hx with rfl | hx
    · simp [hm]
    · simp [hms x hx]
  exact .stretch _ (m :: ms) rest (length_lt_of_append heq (opener_ne_nil h)) hall (heq ▸ hmarks)
    (.opening m ms hm (quiet_of_role hms rfl (by simp)) houtside)

theorem scanned_closing (h : g.char = ')') : Scanned comments (g :: gs) := by
  refine .stretch _ [⟨g, .closing⟩] gs (by simp) (all_closing h gs) ?_ (.closing rfl)
  simp [marks, step, start, h, isBlank]

theorem not_skipped (hplain : comments = true → g.char = ';' → Token.afterComment gs = none)
    (hg : g.char = ';') : skipped comments gs = false := by
  cases hc : comments with
  | false => rfl
  | true => simp [skipped, ← afterComment_isSome, hplain hc hg]

variable (hblank : isBlank g.char = false)
  (hplain : comments = true → g.char = ';' → Token.afterComment gs = none)
include hblank hplain

theorem scanned_atom {lexeme rest : List Glyph} {v : Value}
    (hof : Token.ofGlyphs g gs = (⟨.atom v, g.position⟩, rest)) (heq : g :: gs = lexeme ++ rest)
    (hb : ¬ Bracketed (g :: gs)) (ha : Atom lexeme v rest) : Scanned comments (g :: gs) := by
  obtain ⟨ms, hmarks, hquiet, houtside⟩ := atomic_of_atom heq hb (not_skipped hplain) ha
  refine .stretch [⟨.atom v, g.position⟩] ms rest (length_lt_of_append heq (atom_ne_nil ha)) ?_ hmarks
    (.atom ha (fun m hm => (hquiet m hm).1) houtside)
  rw [all_ofGlyphs hblank hplain, hof]
  rfl

theorem scanned_fault {f : ReadFault} {p : Position}
    (h : Token.ofGlyphs g gs = (⟨.fault f, p⟩, [])) : Scanned comments (g :: gs) := by
  have hq : g.char = '"' := char_of_fault h
  have hof : Token.ofGlyphs g gs = Token.ofString g gs :=
    ofGlyphs_string (by simp [Bracketed, hq]) hq
  have hall : Token.all comments (g :: gs) = [⟨.fault f, p⟩] := by
    rw [all_ofGlyphs hblank hplain, h, Token.all]
  have hliteral : Literal (skipped comments) gs (Token.stringBody gs).2 := literal gs
  obtain ⟨⟨cs, fin⟩, hs⟩ : ∃ b, Token.stringBody gs = b := ⟨_, rfl⟩
  rw [hof, Token.ofString, hs] at h
  rw [hs] at hliteral
  cases hliteral with
  | closed _ _ _ _ => cases h
  | cut hms =>
    cases h
    exact .cut ⟨g, .quote⟩ _ hall rfl hms (marks_quote hq gs)
  | @escape ms after e hms he hmarks =>
    cases h
    refine .refused (⟨g, .quote⟩ :: ms) ⟨e, .escape⟩ after hall ?_ rfl he ?_
    · exact List.forall_mem_cons.2 ⟨by simp [Quiet, Role.weight], fun m hm => (hms m hm).quiet⟩
    · rw [marks_quote hq, hmarks]
      rfl

end

inductive Begins (comments : Bool) (g : Glyph) (gs : List Glyph) : Prop
  | blank : isBlank g.char → Begins comments g gs
  | comment {rest : List Glyph} : comments = true → g.char = ';' → Token.afterComment gs = some rest →
    Begins comments g gs
  | closing : g.char = ')' → Begins comments g gs
  | opening {os rest : List Glyph} {quoted : Bool} {opened : Position} : g :: gs = os ++ rest →
    Opener os quoted opened → Begins comments g gs
  | atom {lexeme rest : List Glyph} {v : Value} : isBlank g.char = false →
    (comments = true → g.char = ';' → Token.afterComment gs = none) →
    Token.ofGlyphs g gs = (⟨.atom v, g.position⟩, rest) → g :: gs = lexeme ++ rest →
    ¬ Bracketed (g :: gs) → Atom lexeme v rest → Begins comments g gs
  | fault {f : ReadFault} {p : Position} : isBlank g.char = false →
    (comments = true → g.char = ';' → Token.afterComment gs = none) →
    Token.ofGlyphs g gs = (⟨.fault f, p⟩, []) → Begins comments g gs

theorem begins (comments : Bool) (g : Glyph) (gs : List Glyph) : Begins comments g gs := by
  cases starts comments g gs with
  | blank hblank => exact .blank hblank
  | comment hc hg hafter => exact .comment hc hg hafter
  | token hblank hplain =>
    have hlex : Lexed g gs (Token.ofGlyphs g gs) := lexed_ofGlyphs hblank
    obtain ⟨t, ht⟩ : ∃ t, Token.ofGlyphs g gs = t := ⟨_, rfl⟩
    rw [ht] at hlex
    cases hlex with
    | closing hg => exact .closing hg
    | opening heq ho => exact .opening heq ho
    | atom heq hb ha => exact .atom hblank hplain ht heq hb ha
    | fault f p => exact .fault hblank hplain ht

theorem scanned (comments : Bool) (g : Glyph) (gs : List Glyph) : Scanned comments (g :: gs) := by
  cases begins comments g gs with
  | blank hblank => exact scanned_blank hblank
  | comment hc hg hafter => exact scanned_comment hc hg hafter
  | closing hg => exact scanned_closing hg
  | opening heq ho => exact scanned_opening heq ho
  | atom hblank hplain hof heq hb ha => exact scanned_atom hblank hplain hof heq hb ha
  | fault hblank hplain hof => exact scanned_fault hblank hplain hof

end MiniLisp.Layout
