import MiniLisp.Proofs.Completion
import MiniLisp.Proofs.Relocation

/-! One text below another. A newline ends every name, number and comment before it, so the tokens of two
texts on lines of their own are the tokens of the first and then those of the second; only a string
goes on over the newline (`lineEnds`). Once its lists are closed a reading is as good as new but for
the forms it has, and what is read below a text is what is read alone, further down
(`readForms_append_newline`). -/

namespace MiniLisp

open Grammar
open Reading (feedAll)

/-! Tokens. -/

def Faulty (ts : List Token) : Prop := ∃ t ∈ ts, ∃ f, t.lexeme = .fault f

theorem Faulty.append {ts : List Token} (h : Faulty ts) (us : List Token) : Faulty (us ++ ts) := by
  obtain ⟨t, ht, hf⟩ := h
  exact ⟨t, List.mem_append_right us ht, hf⟩

theorem Faulty.feedAll_ne_ok {ts : List Token} (h : Faulty ts) (nesting : Nat) (r r' : Reading) :
    feedAll nesting r ts ≠ .ok r' := by
  induction ts generalizing r with
  | nil =>
    obtain ⟨t, ht, -⟩ := h
    simp at ht
  | cons t ts ih =>
    obtain ⟨u, hu, f, hf⟩ := h
    rw [feedAll]
    cases hfeed : r.feed nesting t with
    | error e => simp
    | ok r₁ =>
      rcases List.mem_cons.1 hu with rfl | hu
      · simp [Reading.feed, hf] at hfeed
      · exact ih ⟨u, hu, f, hf⟩ r₁

theorem Faulty.formsOfTokens_ne_ok {ts : List Token} (h : Faulty ts) (nesting : Nat)
    (vs : List Value) : formsOfTokens nesting ts ≠ .ok vs := by
  rw [formsOfTokens]
  cases hfeed : feedAll nesting {} ts with
  | error e => simp
  | ok r => exact absurd hfeed (h.feedAll_ne_ok nesting {} r)

theorem stringBody_of_append_singleton {gs rest : List Glyph} {n : Glyph} {cs : List Char}
    (hn : n.char ≠ '"') (h : Token.stringBody (gs ++ [n]) = (cs, .closed rest)) :
    ∃ rest', Token.stringBody gs = (cs, .closed rest') := by
  obtain ⟨body, c, heq, hbody, hc⟩ := quoted_of_stringBody h
  rcases List.eq_nil_or_concat rest with rfl | ⟨rest', x, rfl⟩
  · obtain ⟨-, hlast⟩ := List.append_inj' heq rfl
    obtain rfl : n = c := by simpa using hlast
    exact absurd hc hn
  · have hgs : gs ++ [n] = (body ++ c :: rest') ++ [x] := by simpa using heq
    rw [(List.append_inj' hgs rfl).1]
    exact ⟨rest', stringBody_of_quoted hbody hc⟩

theorem faulty_ofString {g : Glyph} {gs : List Glyph}
    (h : ∀ cs rest, Token.stringBody gs ≠ (cs, .closed rest)) (ts : List Token) :
    Faulty ((Token.ofString g gs).1 :: ts) := by
  refine ⟨_, List.mem_cons_self, ?_⟩
  unfold Token.ofString
  split
  · rename_i hclosed
    exact absurd hclosed (h _ _)
  · exact ⟨_, rfl⟩
  · exact ⟨_, rfl⟩

/-- What comes of a text at the end of a line: the tokens of the lines below follow its own; or it ends
within a string, and has a malformed token with the newline and without. -/
def LineEnds (comments : Bool) (n : Glyph) (gs : List Glyph) : Prop :=
  (∀ more, Token.all comments (gs ++ n :: more) = Token.all comments gs ++ Token.all comments more) ∨
    Faulty (Token.all comments gs) ∧ Faulty (Token.all comments (gs ++ [n]))

theorem LineEnds.of_rest {comments : Bool} {n : Glyph} {gs rest : List Glyph} (ts : List Token)
    (hself : Token.all comments gs = ts ++ Token.all comments rest)
    (hmore : ∀ more, Token.all comments (gs ++ n :: more) = ts ++ Token.all comments (rest ++ n :: more))
    (h : LineEnds comments n rest) : LineEnds comments n gs := by
  rcases h with h | ⟨hrest, hrest'⟩
  · refine Or.inl fun more => ?_
    rw [hmore, h, hself, List.append_assoc]
  · refine Or.inr ⟨?_, ?_⟩
    · rw [hself]
      exact hrest.append ts
    · rw [hmore]
      exact hrest'.append ts

section

variable {comments : Bool} {n g : Glyph} (hn : n.char = '\n') {gs : List Glyph}
include hn

theorem isBlank_newline : isBlank n.char := by
  rw [hn]
  rfl

theorem lineEnds_comment {rest : List Glyph} (hc : comments = true) (hg : g.char = ';')
    (h : Token.afterComment gs = some rest) (hrest : LineEnds comments n rest) :
    LineEnds comments n (g :: gs) := by
  by_cases hnil : rest = []
  · subst hnil
    have hend (more : List Glyph) : Token.afterComment (gs ++ n :: more) = some (n :: more) := by
      rw [afterComment_append_of_nil h]
      simp [Token.afterComment, Glyph.isLineEnd, hn]
    refine Or.inl fun more => ?_
    rw [List.cons_append, all_comment hc hg (hend more), all_blank (isBlank_newline hn),
      all_comment hc hg h, Token.all]
    rfl
  · exact hrest.of_rest [] (all_comment hc hg h)
      fun more => all_comment hc hg (afterComment_append h hnil)

theorem lineEnds_atom {lexeme rest : List Glyph} {v : Value} (hblank : isBlank g.char = false)
    (hplain : comments = true → g.char = ';' → Token.afterComment gs = none)
    (hcut : CleanCut comments (g :: gs) [n]) (heq : g :: gs = lexeme ++ rest)
    (hb : ¬ Bracketed (g :: gs)) (ha : Atom lexeme v rest) (hrest : LineEnds comments n rest) :
    LineEnds comments n (g :: gs) := by
  have hresumes (more : List Glyph) : Resumes rest (rest ++ n :: more) := by
    intro x hx
    cases rest with
    | nil =>
      obtain rfl : n = x := by simpa using hx
      exact Or.inr (isBlank_newline hn)
    | cons y rest => exact Or.inl hx
  have hself : Resumes rest (rest ++ []) := by
    rw [List.append_nil]
    exact fun _ hx => Or.inl hx
  refine hrest.of_rest [⟨.atom v, g.position⟩] ?_
    fun more => all_append_atom hblank hplain heq hb ha hcut (hresumes more)
  simpa using all_append_atom hblank hplain heq hb ha cleanCut_nil hself

theorem lineEnds_fault {f : ReadFault} {p : Position} (hblank : isBlank g.char = false)
    (hplain : comments = true → g.char = ';' → Token.afterComment gs = none)
    (hcut : CleanCut comments (g :: gs) [n]) (h : Token.ofGlyphs g gs = (⟨.fault f, p⟩, [])) :
    LineEnds comments n (g :: gs) := by
  have hq : g.char = '"' := char_of_fault h
  have hof (more : List Glyph) : Token.ofGlyphs g more = Token.ofString g more :=
    ofGlyphs_string (by simp [Bracketed, hq]) hq
  have hopen : ∀ cs rest, Token.stringBody gs ≠ (cs, .closed rest) := by
    intro cs rest hclosed
    simp [hof, Token.ofString, hclosed] at h
  have hopen' : ∀ cs rest, Token.stringBody (gs ++ [n]) ≠ (cs, .closed rest) := by
    intro cs rest hclosed
    obtain ⟨rest', hclosed'⟩ := stringBody_of_append_singleton (by simp [hn]) hclosed
    exact hopen cs rest' hclosed'
  refine Or.inr ⟨?_, ?_⟩
  · rw [all_ofGlyphs hblank hplain, hof]
    exact faulty_ofString hopen _
  · rw [all_append_ofGlyphs hblank hplain hcut, hof]
    exact faulty_ofString hopen' _

/-- The induction is on the length of the text, as one step of the scan leaves less of it. -/
theorem lineEnds (hcut : CleanCut comments gs [n]) : LineEnds comments n gs := by
  induction hlen : gs.length using Nat.strong_induction_on generalizing gs with
  | _ len ih =>
    subst hlen
    cases gs with
    | nil =>
      refine Or.inl fun more => ?_
      rw [List.nil_append, all_blank (isBlank_newline hn), Token.all]
      rfl
    | cons g gs =>
      have hrest {rest : List Glyph} (hsuffix : rest <:+ gs) : LineEnds comments n rest := by
        have hlt : rest.length < (g :: gs).length := Nat.lt_succ_of_le hsuffix.length_le
        exact ih rest.length hlt (hcut.of_suffix (hsuffix.trans (List.suffix_cons g gs))) rfl
      cases starts comments g gs with
      | blank hblank =>
        exact (hrest List.suffix_rfl).of_rest [] (all_blank hblank gs)
          fun more => all_blank hblank (gs ++ n :: more)
      | comment hc hg hafter =>
        exact lineEnds_comment hn hc hg hafter (hrest (afterComment_suffix hafter))
      | token hblank hplain =>
        have hlex : Lexed g gs (Token.ofGlyphs g gs) := lexed_ofGlyphs hblank
        obtain ⟨t, ht⟩ : ∃ t, Token.ofGlyphs g gs = t := ⟨_, rfl⟩
        rw [ht] at hlex
        cases hlex with
        | closing hg =>
          exact (hrest List.suffix_rfl).of_rest [⟨.closing, g.position⟩] (all_closing hg gs)
            fun more => all_closing hg (gs ++ n :: more)
        | @opening os rest quoted opened heq ho =>
          refine (hrest (suffix_of_append heq (opener_ne_nil ho))).of_rest
            [⟨.opening quoted, opened⟩] ?_ fun more => ?_
          · rw [heq, all_opener ho]
            rfl
          · rw [heq, List.append_assoc, all_opener ho]
            rfl
        | atom heq hb ha =>
          exact lineEnds_atom hn hblank hplain hcut heq hb ha
            (hrest (suffix_of_append heq (atom_ne_nil ha)))
        | fault f p => exact lineEnds_fault hn hblank hplain hcut ht

end

/-! Readings. -/

namespace Reading

/-- Open lists, with `base` before all that stands before the outermost of them. -/
def framesOnto (base : List Value) : List Frame → List Frame
  | [] => []
  | [f] => [{ f with before := f.before ++ base }]
  | f :: fs => f :: framesOnto base fs

def onto (base : List Value) (r : Reading) : Reading :=
  match r.frames with
  | [] => ⟨r.forms ++ base, []⟩
  | f :: fs => ⟨r.forms, framesOnto base (f :: fs)⟩

variable (base : List Value) (nesting : Nat)

theorem length_framesOnto (fs : List Frame) : (framesOnto base fs).length = fs.length := by
  fun_induction framesOnto base fs with
  | case1 => rfl
  | case2 f => rfl
  | case3 f fs _ ih => rw [List.length_cons, ih, List.length_cons]

theorem feed_onto (r : Reading) (t : Token) :
    (r.onto base).feed nesting t = (r.feed nesting t).map (onto base) := by
  obtain ⟨lexeme, p⟩ := t
  obtain ⟨forms, frames⟩ := r
  cases lexeme with
  | atom v => cases frames <;> rfl
  | fault f => rfl
  | opening quoted =>
    cases frames with
    | nil =>
      change (if nesting ≤ 0 then _ else _) = Except.map _ (if nesting ≤ 0 then _ else _)
      split_ifs <;> rfl
    | cons f fs =>
      simp only [onto, feed, length_framesOnto]
      split_ifs <;> rfl
  | closing =>
    cases frames with
    | nil => rfl
    | cons f fs => cases fs <;> rfl

theorem feedAll_onto (r : Reading) (ts : List Token) :
    feedAll nesting (r.onto base) ts = (feedAll nesting r ts).map (onto base) := by
  induction ts generalizing r with
  | nil => rfl
  | cons t ts ih =>
    rw [feedAll, feed_onto, feedAll]
    cases r.feed nesting t with
    | ok r' => exact ih r'
    | error e => rfl

theorem finish_onto (r : Reading) : (r.onto base).finish = r.finish.map (base.reverse ++ ·) := by
  obtain ⟨forms, frames⟩ := r
  cases frames with
  | nil => exact congrArg Except.ok List.reverse_append
  | cons f fs => cases fs <;> rfl

end Reading

theorem formsOfTokens_append {nesting : Nat} {ts : List Token} {vs : List Value}
    (h : formsOfTokens nesting ts = .ok vs) (us : List Token) :
    formsOfTokens nesting (ts ++ us) = (formsOfTokens nesting us).map (vs ++ ·) := by
  rw [formsOfTokens] at h
  cases hfeed : feedAll nesting {} ts with
  | error e => simp [hfeed] at h
  | ok r =>
    obtain ⟨forms, frames⟩ := r
    rw [hfeed] at h
    cases frames with
    | cons f fs => simp [Reading.finish] at h
    | nil =>
      obtain rfl : forms.reverse = vs := by simpa [Reading.finish] using h
      have honto := Reading.feedAll_onto forms nesting {} us
      change feedAll nesting ⟨forms, []⟩ us = _ at honto
      rw [formsOfTokens, feedAll_append, hfeed, formsOfTokens]
      dsimp only [Except.bind]
      rw [honto]
      cases feedAll nesting {} us with
      | ok r => exact Reading.finish_onto forms r
      | error e => rfl

/-! Texts. -/

/-- Where a position in a text is when the text stands below `a`. -/
def Position.below (a : String) (p : Position) : Position := p.down (a.toList.count '\n' + 1)

theorem ofText_append_newline (a b : String) :
    ∃ n : Glyph, n.char = '\n' ∧ Glyph.ofText (a ++ "\n" ++ b) =
      Glyph.ofText a ++ n :: (Glyph.ofText b).map (Glyph.move (Position.below a)) := by
  refine ⟨⟨'\n', Position.start.after a.toList⟩, rfl, ?_⟩
  have htext : (a ++ "\n" ++ b).toList = a.toList ++ ['\n'] ++ b.toList := by simp
  rw [Glyph.ofText, htext, place_append_after, Position.after_newline, place_down, place_append_after,
    List.append_assoc]
  rfl

section

variable {config : ReaderConfig} {a : String}
  (hcut : config.comments = false ∨ a.toList.getLast? ≠ some '\r')
include hcut

theorem lineEnds_ofText {n : Glyph} (hn : n.char = '\n') :
    LineEnds config.comments n (Glyph.ofText a) := by
  refine lineEnds hn fun hc hlast => ?_
  rw [Glyph.ofText, chars_place] at hlast
  simp [hc, hlast] at hcut

/-- What stands below a text that is read is read as it is alone, but for the lines on which it stands. -/
theorem readForms_append_newline {vs : List Value} (h : readForms config a = .ok vs) (b : String) :
    readForms config (a ++ "\n" ++ b) =
      ((readForms config b).map fun ws => vs ++ ws.map (Value.move (Position.below a))).mapError
        (ReadError.move (Position.below a)) := by
  obtain ⟨n, hn, htext⟩ := ofText_append_newline a b
  rcases lineEnds_ofText hcut hn with hall | ⟨hfaulty, -⟩
  · rw [readForms, htext, hall, Token.all_move, formsOfTokens_append h, formsOfTokens_move, ← readForms]
    cases readForms config b <;> rfl
  · exact absurd h (hfaulty.formsOfTokens_ne_ok _ _)

theorem readForms_newline_iff {vs : List Value} :
    readForms config (a ++ "\n") = .ok vs ↔ readForms config a = .ok vs := by
  obtain ⟨n, hn, htext⟩ := ofText_append_newline a ""
  have hend : Glyph.ofText (a ++ "\n") = Glyph.ofText a ++ [n] := by
    simpa [Glyph.ofText, Glyph.place] using htext
  rw [readForms, readForms, hend]
  rcases lineEnds_ofText hcut hn with hall | ⟨hfaulty, hfaulty'⟩
  · rw [hall, Token.all, List.append_nil]
  · exact iff_of_false (hfaulty'.formsOfTokens_ne_ok _ _) (hfaulty.formsOfTokens_ne_ok _ _)

end

/-- One text below another, without comments. The forms of `b` stand behind those of `a`, with every list
in them `k` lines further down in the same column, for `k` one more than the newlines of `a`; and so does
the error of `b`, if it is not read. -/
theorem readForms_below {nesting : Nat} {a : String} {vs : List Value}
    (h : readForms ⟨false, nesting⟩ a = .ok vs) (b : String) :
    let k := 1 + a.toList.count '\n'
    (∀ ws, readForms ⟨false, nesting⟩ b = .ok ws →
      readForms ⟨false, nesting⟩ (a ++ "\n" ++ b) =
        .ok (vs ++ ws.map (Value.move (Position.down k)))) ∧
    ∀ e, readForms ⟨false, nesting⟩ b = .error e →
      ∃ e', readForms ⟨false, nesting⟩ (a ++ "\n" ++ b) = .error e' ∧
        e'.fault.kind = e.fault.kind ∧ e'.fault.found = e.fault.found ∧
        e'.position = ⟨e.position.line + k, e.position.column⟩ := by
  intro k
  have hread := readForms_append_newline (Or.inl rfl) h b
  have hbelow : Position.below a = Position.down k :=
    congrArg Position.down (Nat.add_comm (a.toList.count '\n') 1)
  rw [hbelow] at hread
  constructor
  · intro ws hb
    rw [hread, hb]
    rfl
  · intro e hb
    refine ⟨e.move (Position.down k), ?_, e.fault.kind_move _, e.fault.found_move _, rfl⟩
    rw [hread, hb]
    rfl

/-- Below a text of three lines, the last of them within a string: a list in a list, and an escape
sequence that is none. -/
theorem readForms_below_string :
    readForms ⟨false, 2⟩ ("é\n\"x\ny\"" ++ "\n" ++ "ü('(z))") =
      .ok [.symbol "é", .string "x\ny", .symbol "ü",
        .list [.list [.symbol "z"] true (some ⟨4, 3⟩)] false (some ⟨4, 2⟩)] ∧
    ∃ e, readForms ⟨false, 2⟩ ("é\n\"x\ny\"" ++ "\n" ++ "\n(\"\\q") = .error e ∧
      e.fault.kind = .invalidEscape ∧ e.fault.found = some "q" ∧ e.position = ⟨5, 4⟩ := by
  have ha : readForms ⟨false, 2⟩ "é\n\"x\ny\"" = .ok [.symbol "é", .string "x\ny"] := by decide +kernel
  have hb : readForms ⟨false, 2⟩ "ü('(z))" =
      .ok [.symbol "ü", .list [.list [.symbol "z"] true (some ⟨1, 3⟩)] false (some ⟨1, 2⟩)] := by decide +kernel
  have hc : readForms ⟨false, 2⟩ "\n(\"\\q" = .error ⟨.badEscape 'q', ⟨2, 4⟩⟩ := by decide +kernel
  exact ⟨(readForms_below ha _).1 _ hb, (readForms_below ha _).2 _ hc⟩

end MiniLisp
