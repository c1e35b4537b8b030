import MiniLisp.Proofs.Parsing

/-! Text that goes on. One step of the scan is settled by the text it has gone over, whatever follows
that, except at the very end: there a name, a number or a comment may still grow, and a string may
still be closed (`advance`). A comment is the one thing that looks ahead, from a carriage return to its
newline; so the text must not be cut between the two (`CleanCut`). -/

namespace MiniLisp

open Grammar

/-- Where comments are read, the text is not cut between a carriage return and its newline: a comment
ends before the two, but does not end before a carriage return alone. -/
def CleanCut (comments : Bool) (gs more : List Glyph) : Prop :=
  comments = true → (Token.chars gs).getLast? = some '\r' → (Token.chars more).head? ≠ some '\n'

/-- The text goes on as `rest` does, or with white space. -/
def Resumes (rest rest' : List Glyph) : Prop :=
  ∀ g ∈ rest'.head?, g ∈ rest.head? ∨ isBlank g.char

section

variable {comments : Bool} {gs rest more : List Glyph}

theorem cleanCut_nil : CleanCut comments gs [] := by
  intro _ _ h
  simp [Token.chars] at h

theorem CleanCut.of_suffix (h : CleanCut comments gs more) (hs : rest <:+ gs) :
    CleanCut comments rest more := by
  intro hc hlast
  obtain ⟨text, rfl⟩ := hs
  refine h hc ?_
  rw [Token.chars, List.map_append, List.getLast?_append, ← Token.chars, hlast, Option.some_or]

theorem resumes_append (h : rest ≠ []) : Resumes rest (rest ++ more) := by
  obtain ⟨g, rest, rfl⟩ := List.exists_cons_of_ne_nil h
  exact fun _ hg => Or.inl hg

end

/-! Tokens of a text that goes on. -/

section

variable {rest rest' : List Glyph} (hr : Resumes rest rest')
include hr

theorem stops_of_resumes {p : Glyph → Bool} (hp : ∀ g, isBlank g.char → p g = false)
    (h : Stops p rest) : Stops p rest' := by
  intro g hg
  rcases hr g hg with hg' | hblank
  · exact h g hg'
  · exact hp g hblank

theorem head_of_resumes {p : Glyph → Prop} (hp : ∀ g, p g → isBlank g.char = false) (run : List Glyph)
    (h : ∃ g ∈ (run ++ rest').head?, p g) : ∃ g ∈ (run ++ rest).head?, p g := by
  cases run with
  | cons x run => exact h
  | nil =>
    obtain ⟨g, hg, hpg⟩ := h
    rcases hr g hg with hg' | hblank
    · exact ⟨g, hg', hpg⟩
    · simp [hp g hpg] at hblank

end

theorem not_inName_of_isBlank (g : Glyph) (h : isBlank g.char) : g.inName = false := by
  simp [Glyph.inName, Glyph.isDelimiter, h]

theorem not_inNumber_of_isBlank (g : Glyph) (h : isBlank g.char) : g.inNumber = false := by
  have hdigit : ¬ g.isDigit := fun hd => by simp [not_isBlank_of_isDigit hd] at h
  have hdot : g.char ≠ '.' := fun hd => by simp [hd, isBlank] at h
  simp [Glyph.inNumber, hdigit, hdot]

section

variable {g : Glyph} {run rest rest' : List Glyph} (hr : Resumes rest rest')
include hr

theorem numberStart_of_resumes (h : NumberStart (g :: (run ++ rest'))) :
    NumberStart (g :: (run ++ rest)) := by
  rcases h with hd | ⟨hg, hhead⟩
  · exact Or.inl hd
  · exact Or.inr ⟨hg, head_of_resumes hr (fun _ hd => not_isBlank_of_isDigit hd) run hhead⟩

theorem keywordStart_of_resumes (h : KeywordStart (g :: (run ++ rest'))) :
    KeywordStart (g :: (run ++ rest)) :=
  ⟨h.1, head_of_resumes hr (fun _ hn => (inName_iff.1 hn).1) run h.2⟩

theorem bracketed_of_resumes (h : Bracketed (g :: (run ++ rest'))) :
    Bracketed (g :: (run ++ rest)) := by
  rcases h with hopen | hclose | ⟨hquote, hhead⟩
  · exact Or.inl hopen
  · exact Or.inr (Or.inl hclose)
  · refine Or.inr (Or.inr ⟨hquote, head_of_resumes hr ?_ run hhead⟩)
    intro o ho
    rw [ho]
    rfl

theorem atom_of_resumes {gs : List Glyph} {v : Value} (h : Atom gs v rest) : Atom gs v rest' := by
  cases h with
  | number hsign hd hrun hstop =>
    exact .number hsign hd hrun (stops_of_resumes hr not_inNumber_of_isBlank hstop)
  | string hq hbody hc => exact .string hq hbody hc
  | keyword hg hne hrun hstop =>
    exact .keyword hg hne hrun (stops_of_resumes hr not_inName_of_isBlank hstop)
  | symbol hne hrun hstop hnumber hstring hkeyword =>
    obtain ⟨g, run, rfl⟩ := List.exists_cons_of_ne_nil hne
    exact .symbol hne hrun (stops_of_resumes hr not_inName_of_isBlank hstop)
      (mt (numberStart_of_resumes hr) hnumber) hstring (mt (keywordStart_of_resumes hr) hkeyword)

end

theorem atom_ne_nil {gs rest : List Glyph} {v : Value} (h : Atom gs v rest) : gs ≠ [] := by
  cases h <;> simp_all

/-- A token that is an atom stays it when the text behind it goes on as it did, or with white space. -/
theorem ofGlyphs_of_resumes {g : Glyph} {gs lexeme rest rest' : List Glyph} {v : Value}
    (heq : g :: gs = lexeme ++ rest) (hb : ¬ Bracketed (g :: gs)) (ha : Atom lexeme v rest)
    (hr : Resumes rest rest') :
    ∃ run, gs = run ++ rest ∧ Token.ofGlyphs g (run ++ rest') = (⟨.atom v, g.position⟩, rest') := by
  obtain ⟨x, run, rfl⟩ := List.exists_cons_of_ne_nil (atom_ne_nil ha)
  obtain ⟨rfl, rfl⟩ := List.cons.inj heq
  obtain ⟨y, more, heq', _, hof⟩ :=
    ofGlyphs_of_atom (mt (bracketed_of_resumes hr) hb) (atom_of_resumes hr ha)
  obtain ⟨rfl, rfl⟩ := List.cons.inj heq'
  exact ⟨run, rfl, hof⟩

/-! Strings. -/

theorem stringBody_append_of_escape {gs : List Glyph} {cs : List Char} {e : Glyph}
    (h : Token.stringBody gs = (cs, .escape e)) (more : List Glyph) :
    Token.stringBody (gs ++ more) = (cs, .escape e) := by
  fun_induction Token.stringBody gs generalizing cs with
  | case1 => simp at h
  | case2 => simp at h
  | case3 => simp at h
  | case4 g hq hb e' gs c hc cs' fin hs ih =>
    simp only [Prod.mk.injEq] at h
    obtain ⟨rfl, rfl⟩ := h
    rw [List.cons_append, List.cons_append, Token.stringBody.eq_def]
    simp [hq, hb, hc, ih hs]
  | case5 g hq hb e' gs hc =>
    simp only [Prod.mk.injEq, StringEnd.escape.injEq] at h
    obtain ⟨rfl, rfl⟩ := h
    rw [List.cons_append, List.cons_append, Token.stringBody.eq_def]
    simp [hq, hb, hc]
  | case6 g gs hq hb cs' fin hs ih =>
    simp only [Prod.mk.injEq] at h
    obtain ⟨rfl, rfl⟩ := h
    rw [List.cons_append, Token.stringBody.eq_def]
    simp [hq, hb, ih hs]

/-- The text of a string that is cut lacks nothing before its closing quote, unless it is cut behind a
backslash: then it lacks the rest of the escape sequence, which may be a quote. -/
theorem quoted_of_cut {gs : List Glyph} {cs : List Char} (h : Token.stringBody gs = (cs, .cut)) :
    ∃ pad ds, (pad = [] ∨ pad = ['"']) ∧
      ∀ more, Token.chars more = pad → Quoted (gs ++ more) ds := by
  fun_induction Token.stringBody gs generalizing cs with
  | case1 =>
    refine ⟨[], [], Or.inl rfl, fun more hmore => ?_⟩
    obtain rfl : more = [] := List.map_eq_nil_iff.1 hmore
    exact .nil
  | case2 => simp at h
  | case3 g hq hb =>
    refine ⟨['"'], ['"'], Or.inr rfl, fun more hmore => ?_⟩
    obtain ⟨e, rfl, he⟩ := List.map_eq_singleton_iff.1 hmore
    exact .escape (by simpa using hb) (he ▸ .quote) .nil
  | case4 g hq hb e gs c hc cs' fin hs ih =>
    simp only [Prod.mk.injEq] at h
    obtain ⟨rfl, rfl⟩ := h
    obtain ⟨pad, ds, hpad, hquoted⟩ := ih hs
    exact ⟨pad, c :: ds, hpad, fun more hmore =>
      .escape (by simpa using hb) (escape_iff.2 hc) (hquoted more hmore)⟩
  | case5 => simp at h
  | case6 g gs hq hb cs' fin hs ih =>
    simp only [Prod.mk.injEq] at h
    obtain ⟨rfl, rfl⟩ := h
    obtain ⟨pad, ds, hpad, hquoted⟩ := ih hs
    exact ⟨pad, g.char :: ds, hpad, fun more hmore =>
      .plain (by simpa using hq) (by simpa using hb) (hquoted more hmore)⟩

theorem char_of_fault {g : Glyph} {gs rest : List Glyph} {f : ReadFault} {p : Position}
    (h : Token.ofGlyphs g gs = (⟨.fault f, p⟩, rest)) : g.char = '"' := by
  unfold Token.ofGlyphs at h
  split_ifs at h with _ _ _ _ hq <;> simp_all

/-! Comments. -/

section

variable {gs rest more : List Glyph}

theorem afterComment_suffix (h : Token.afterComment gs = some rest) : rest <:+ gs := by
  unfold Token.afterComment at h
  split at h
  · cases h
    exact List.nil_suffix
  · rename_i g tail hdrop
    split_ifs at h
    cases h
    exact hdrop ▸ List.dropWhile_suffix _

theorem afterComment_append_eq (gs more : List Glyph) :
    Token.afterComment (gs ++ more) =
      match gs.dropWhile fun g => !g.isLineEnd with
      | [] => Token.afterComment more
      | g :: tail =>
        if g.char == '\n' || (tail ++ more).head?.any (·.char == '\n') then some (g :: tail ++ more)
        else none := by
  unfold Token.afterComment
  rw [List.dropWhile_append]
  cases gs.dropWhile fun g => !g.isLineEnd with
  | nil => rfl
  | cons g tail => rfl

theorem afterComment_append (h : Token.afterComment gs = some rest) (hne : rest ≠ []) :
    Token.afterComment (gs ++ more) = some (rest ++ more) := by
  rw [Token.afterComment] at h
  rw [afterComment_append_eq]
  cases hdrop : gs.dropWhile fun g => !g.isLineEnd with
  | nil =>
    rw [hdrop] at h
    cases h
    exact absurd rfl hne
  | cons g tail =>
    rw [hdrop] at h
    dsimp only at h ⊢
    split_ifs at h with hend
    cases h
    refine if_pos ?_
    rw [Bool.or_eq_true] at hend ⊢
    refine hend.imp_right fun hnewline => ?_
    cases tail with
    | nil => simp at hnewline
    | cons x tail => exact hnewline

theorem afterComment_append_of_nil (h : Token.afterComment gs = some []) (more : List Glyph) :
    Token.afterComment (gs ++ more) = Token.afterComment more := by
  rw [Token.afterComment] at h
  rw [afterComment_append_eq]
  cases hdrop : gs.dropWhile fun g => !g.isLineEnd with
  | nil => rfl
  | cons g tail =>
    rw [hdrop] at h
    dsimp only at h
    split_ifs at h
    simp at h

theorem afterComment_append_of_none (h : Token.afterComment gs = none) (hcut : CleanCut true gs more) :
    Token.afterComment (gs ++ more) = none := by
  rw [Token.afterComment] at h
  rw [afterComment_append_eq]
  cases hdrop : gs.dropWhile fun g => !g.isLineEnd with
  | nil => simp [hdrop] at h
  | cons g tail =>
    rw [hdrop] at h
    dsimp only at h ⊢
    split_ifs at h with hend
    refine if_neg ?_
    rw [Bool.or_eq_true, not_or] at hend ⊢
    refine ⟨hend.1, ?_⟩
    cases tail with
    | cons x tail => exact hend.2
    | nil =>
      -- The carriage return is the last of the text, so that the cut is behind it.
      have hstop : g.isLineEnd := by
        have hhead := List.head?_dropWhile_not (fun g : Glyph => !g.isLineEnd) gs
        simpa [hdrop] using hhead
      have hreturn : g.char = '\r' := by
        have hnewline : g.char ≠ '\n' := by simpa using hend.1
        simpa [Glyph.isLineEnd, hnewline] using hstop
      have hsuffix : [g] <:+ gs := hdrop ▸ List.dropWhile_suffix _
      have hhead := (hcut.of_suffix hsuffix) rfl (by simp [Token.chars, hreturn])
      simpa [Token.chars, Option.any_eq_true] using hhead

end

/-! One step of the scan. -/

/-- Text that makes a clean cut behind any other: there is some, and it does not start with a newline. -/
def Parts (fix : List Char) : Prop := ∃ c ∈ fix.head?, c ≠ '\n'

theorem Parts.cleanCut {comments : Bool} {fix : List Char} {gs more : List Glyph} (h : Parts fix)
    (hmore : Token.chars more = fix) (tail : List Glyph) : CleanCut comments gs (more ++ tail) := by
  obtain ⟨c, hc, hne⟩ := h
  obtain ⟨cs, rfl⟩ := List.head?_eq_some_iff.1 hc
  intro _ _ hhead
  rw [Token.chars, List.map_append, ← Token.chars, hmore] at hhead
  exact hne (Option.some.inj hhead)

/-- How the tokens of a text start. Either the first step is settled, and the same in every longer text;
or it meets what no text can mend; or it comes to the end of the text, and lacks nothing that some
`fix` would not supply. -/
inductive Advance (comments : Bool) (gs : List Glyph) : Prop
  | settled (ts : List Token) (rest : List Glyph) : rest <:+ gs → rest.length < gs.length →
    (∀ t ∈ ts, ∀ f, t.lexeme ≠ .fault f) →
    (∀ more, CleanCut comments gs more →
      Token.all comments (gs ++ more) = ts ++ Token.all comments (rest ++ more)) → Advance comments gs
  | refused (c : Char) (p : Position) :
    (∀ more, CleanCut comments gs more →
      Token.all comments (gs ++ more) = [⟨.fault (.badEscape c), p⟩]) → Advance comments gs
  | ending (ts ts' : List Token) (fix : List Char) : Token.all comments gs = ts →
    (∀ t ∈ ts, (∃ v, t.lexeme = .atom v) ∨ t.lexeme = .fault .unterminatedString) →
    (∀ t ∈ ts', ∃ v, t.lexeme = .atom v) → Parts fix →
    (∀ more tail, Token.chars more = fix →
      Token.all comments (gs ++ (more ++ tail)) = ts' ++ Token.all comments tail) → Advance comments gs

/-- A space parts a carriage return from any newline, and a newline ends a comment. -/
def pause : List Char := [' ', '\n']

theorem parts_pause : Parts pause := ⟨' ', rfl, by decide⟩

section

variable {comments : Bool} {more : List Glyph} (h : Token.chars more = pause)
include h

theorem pause_eq : ∃ s n : Glyph, s.char = ' ' ∧ n.char = '\n' ∧ more = [s, n] := by
  obtain ⟨s, l, rfl, hs, hl⟩ := List.map_eq_cons_iff.1 h
  obtain ⟨n, rfl, hn⟩ := List.map_eq_singleton_iff.1 hl
  exact ⟨s, n, hs, hn, rfl⟩

theorem all_pause (tail : List Glyph) : Token.all comments (more ++ tail) = Token.all comments tail := by
  obtain ⟨s, n, hs, hn, rfl⟩ := pause_eq h
  refine all_blanks ?_ tail
  simp [hs, hn, isBlank]

theorem resumes_pause (rest tail : List Glyph) : Resumes rest (more ++ tail) := by
  obtain ⟨s, n, hs, -, rfl⟩ := pause_eq h
  intro g hg
  obtain rfl : s = g := by simpa using hg
  exact Or.inr (by simp [hs, isBlank])

theorem all_afterComment_pause (tail : List Glyph) :
    ∃ rest, Token.afterComment (more ++ tail) = some rest ∧
      Token.all comments rest = Token.all comments tail := by
  obtain ⟨s, n, hs, hn, rfl⟩ := pause_eq h
  refine ⟨n :: tail, ?_, all_blank (by simp [hn, isBlank]) tail⟩
  simp [Token.afterComment, Glyph.isLineEnd, hs, hn]

end

theorem opener_ne_nil {os : List Glyph} {quoted : Bool} {opened : Position}
    (h : Opener os quoted opened) : os ≠ [] := by
  cases h <;> simp

theorem length_lt_of_append {gs lexeme rest : List Glyph} (heq : gs = lexeme ++ rest)
    (h : lexeme ≠ []) : rest.length < gs.length := by
  have hpos := List.length_pos_iff.2 h
  rw [heq, List.length_append]
  omega

theorem suffix_of_append {g : Glyph} {gs lexeme rest : List Glyph} (heq : g :: gs = lexeme ++ rest)
    (h : lexeme ≠ []) : rest <:+ gs := by
  obtain ⟨x, run, rfl⟩ := List.exists_cons_of_ne_nil h
  exact ⟨run, (List.cons.inj heq).2.symm⟩

theorem advance_blank {comments : Bool} {g : Glyph} (h : isBlank g.char) (gs : List Glyph) :
    Advance comments (g :: gs) :=
  .settled [] gs (List.suffix_cons g gs) (by simp) (by simp) fun more _ => all_blank h (gs ++ more)

theorem advance_comment {comments : Bool} {g : Glyph} {gs rest : List Glyph} (hc : comments = true)
    (hg : g.char = ';') (h : Token.afterComment gs = some rest) : Advance comments (g :: gs) := by
  by_cases hrest : rest = []
  · subst hrest
    refine .ending [] [] pause ?_ (by simp) (by simp) parts_pause fun more tail hmore => ?_
    · rw [all_comment hc hg h, Token.all]
    · obtain ⟨rest, hafter, hall⟩ := all_afterComment_pause hmore tail
      rw [List.cons_append, all_comment hc hg ((afterComment_append_of_nil h _).trans hafter), hall]
      rfl
  · have hsuffix := afterComment_suffix h
    refine .settled [] rest (hsuffix.trans (List.suffix_cons g gs))
      (Nat.lt_succ_of_le hsuffix.length_le) (by simp) fun more _ => ?_
    exact all_comment hc hg (afterComment_append h hrest)

section

variable {comments : Bool} {g : Glyph} {gs : List Glyph} (hblank : isBlank g.char = false)
  (hplain : comments = true → g.char = ';' → Token.afterComment gs = none)
include hblank hplain

theorem all_append_ofGlyphs {more : List Glyph} (hcut : CleanCut comments (g :: gs) more) :
    Token.all comments (g :: gs ++ more) =
      (Token.ofGlyphs g (gs ++ more)).1 :: Token.all comments (Token.ofGlyphs g (gs ++ more)).2 := by
  refine all_ofGlyphs hblank fun hc hg => ?_
  subst hc
  exact afterComment_append_of_none (hplain rfl hg) (hcut.of_suffix (List.suffix_cons g gs))

theorem all_append_atom {lexeme rest more : List Glyph} {v : Value} (heq : g :: gs = lexeme ++ rest)
    (hb : ¬ Bracketed (g :: gs)) (ha : Atom lexeme v rest) (hcut : CleanCut comments (g :: gs) more)
    (hr : Resumes rest (rest ++ more)) :
    Token.all comments (g :: gs ++ more) =
      [⟨.atom v, g.position⟩] ++ Token.all comments (rest ++ more) := by
  obtain ⟨run, hgs, hof⟩ := ofGlyphs_of_resumes heq hb ha hr
  rw [all_append_ofGlyphs hblank hplain hcut, hgs, List.append_assoc, hof]
  rfl

theorem advance_atom {lexeme rest : List Glyph} {v : Value} (heq : g :: gs = lexeme ++ rest)
    (hb : ¬ Bracketed (g :: gs)) (ha : Atom lexeme v rest) : Advance comments (g :: gs) := by
  have hall (more : List Glyph) (hcut : CleanCut comments (g :: gs) more)
      (hr : Resumes rest (rest ++ more)) := all_append_atom hblank hplain heq hb ha hcut hr
  -- An atom that is the last of the text may grow; white space behind it keeps it as it is.
  by_cases hrest : rest = []
  · subst hrest
    refine .ending [⟨.atom v, g.position⟩] [⟨.atom v, g.position⟩] pause ?_ (by simp) (by simp)
      parts_pause fun more tail hmore => ?_
    · have hend := hall [] cleanCut_nil (by simp [Resumes])
      simpa [Token.all] using hend
    · rw [hall _ (parts_pause.cleanCut hmore tail) (resumes_pause hmore _ tail), List.nil_append,
        all_pause hmore]
  · exact .settled [⟨.atom v, g.position⟩] rest ⟨lexeme, heq.symm⟩
      (length_lt_of_append heq (atom_ne_nil ha)) (by simp)
      fun more hcut => hall more hcut (resumes_append hrest)

/-- A string that is malformed: cut, it can be closed; an escape sequence that is none stays so. -/
theorem advance_fault {f : ReadFault} {p : Position}
    (h : Token.ofGlyphs g gs = (⟨.fault f, p⟩, [])) : Advance comments (g :: gs) := by
  have hq : g.char = '"' := char_of_fault h
  have hof (more : List Glyph) : Token.ofGlyphs g more = Token.ofString g more :=
    ofGlyphs_string (by simp [Bracketed, hq]) hq
  have hall (more : List Glyph) (hcut : CleanCut comments (g :: gs) more) :
      Token.all comments (g :: gs ++ more) =
        (Token.ofString g (gs ++ more)).1 :: Token.all comments (Token.ofString g (gs ++ more)).2 := by
    rw [all_append_ofGlyphs hblank hplain hcut, hof]
  obtain ⟨⟨cs, fin⟩, hs⟩ : ∃ b, Token.stringBody gs = b := ⟨_, rfl⟩
  cases fin with
  | closed rest => simp [hof, Token.ofString, hs] at h
  | escape e =>
    refine .refused e.char e.position fun more hcut => ?_
    rw [hall more hcut, Token.ofString, stringBody_append_of_escape hs]
    simp [Token.all]
  | cut =>
    obtain ⟨pad, ds, hpad, hquoted⟩ := quoted_of_cut hs
    have hparts : Parts (pad ++ ['"']) := by
      rcases hpad with rfl | rfl <;> exact ⟨'"', rfl, by decide⟩
    refine .ending [⟨.fault .unterminatedString, g.position⟩]
      [⟨.atom (.string (String.ofList ds)), g.position⟩] (pad ++ ['"']) ?_ (by simp) (by simp) hparts
      fun more tail hmore => ?_
    · have hend := hall [] cleanCut_nil
      simpa [Token.ofString, hs, Token.all] using hend
    · obtain ⟨body, close, rfl, hbody, hclose⟩ := List.map_eq_append_iff.1 hmore
      obtain ⟨c, rfl, hc⟩ := List.map_eq_singleton_iff.1 hclose
      have hstring : Token.stringBody (gs ++ body ++ c :: tail) = (ds, .closed tail) :=
        stringBody_of_quoted (hquoted body hbody) hc
      have htext : gs ++ (body ++ [c] ++ tail) = gs ++ body ++ c :: tail := by simp
      rw [hall _ (hparts.cleanCut hmore tail), Token.ofString, htext, hstring]
      rfl

end

/-- What a text can start with: white space, a comment, or a token. -/
inductive Starts (comments : Bool) (g : Glyph) (gs : List Glyph) : Prop
  | blank : isBlank g.char → Starts comments g gs
  | comment {rest : List Glyph} : comments = true → g.char = ';' → Token.afterComment gs = some rest →
    Starts comments g gs
  | token : isBlank g.char = false →
    (comments = true → g.char = ';' → Token.afterComment gs = none) → Starts comments g gs

theorem starts (comments : Bool) (g : Glyph) (gs : List Glyph) : Starts comments g gs := by
  by_cases hblank : isBlank g.char
  · exact .blank hblank
  rw [Bool.not_eq_true] at hblank
  by_cases hcomment : comments = true ∧ g.char = ';' ∧ ∃ rest, Token.afterComment gs = some rest
  · obtain ⟨hc, hg, rest, hafter⟩ := hcomment
    exact .comment hc hg hafter
  · refine .token hblank fun hc hg => ?_
    by_contra hsome
    exact hcomment ⟨hc, hg, Option.ne_none_iff_exists'.1 hsome⟩

theorem advance (comments : Bool) (g : Glyph) (gs : List Glyph) : Advance comments (g :: gs) := by
  cases starts comments g gs with
  | blank hblank => exact advance_blank hblank gs
  | comment hc hg hafter => exact advance_comment hc hg hafter
  | token hblank hplain =>
    have hlex : Lexed g gs (Token.ofGlyphs g gs) := lexed_ofGlyphs hblank
    obtain ⟨t, ht⟩ : ∃ t, Token.ofGlyphs g gs = t := ⟨_, rfl⟩
    rw [ht] at hlex
    cases hlex with
    | closing hg =>
      exact .settled [⟨.closing, g.position⟩] gs (List.suffix_cons g gs) (by simp) (by simp)
        fun more _ => all_closing hg (gs ++ more)
    | @opening os rest quoted opened heq ho =>
      refine .settled [⟨.opening quoted, opened⟩] rest ⟨os, heq.symm⟩
        (length_lt_of_append heq (opener_ne_nil ho)) (by simp) fun more _ => ?_
      rw [heq, List.append_assoc, all_opener ho]
      rfl
    | atom heq hb ha => exact advance_atom hblank hplain heq hb ha
    | fault f p => exact advance_fault hblank hplain ht

end MiniLisp
