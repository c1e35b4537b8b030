import MiniLisp.Proofs.Grammar

/-! The reader accepts exactly the programs of the grammar. A derivation drives the reading over the
tokens of its text (`feedAll_forms`); and a reading that comes to a good end has gone through a
derivation of what it read in each list (`forms_of_feedAll`). -/

namespace MiniLisp.Grammar

open Reading (feedAll)

section

variable {comments : Bool}

theorem all_blank {g : Glyph} (h : isBlank g.char) (gs : List Glyph) :
    Token.all comments (g :: gs) = Token.all comments gs := by
  rw [Token.all]
  simp [Token.scan, h]

theorem all_blanks {blanks : List Glyph} (h : ∀ g ∈ blanks, isBlank g.char) (gs : List Glyph) :
    Token.all comments (blanks ++ gs) = Token.all comments gs := by
  induction blanks with
  | nil => rfl
  | cons g blanks ih =>
    rw [List.cons_append, all_blank (h g List.mem_cons_self)]
    exact ih fun x hx => h x (List.mem_cons_of_mem g hx)

theorem all_comment {g : Glyph} {gs rest : List Glyph} (hc : comments = true) (hg : g.char = ';')
    (h : Token.afterComment gs = some rest) : Token.all comments (g :: gs) = Token.all comments rest := by
  have hblank : isBlank ';' = false := rfl
  rw [Token.all]
  simp [Token.scan, hc, hg, h, hblank]

theorem all_ofGlyphs {g : Glyph} {gs : List Glyph} (h : isBlank g.char = false)
    (hplain : comments = true → g.char = ';' → Token.afterComment gs = none) :
    Token.all comments (g :: gs) =
      (Token.ofGlyphs g gs).1 :: Token.all comments (Token.ofGlyphs g gs).2 := by
  have hnone : (if comments && g.char == ';' then Token.afterComment gs else none) = none := by
    split_ifs with hc
    · rw [Bool.and_eq_true, beq_iff_eq] at hc
      exact hplain hc.1 hc.2
    · rfl
  rw [Token.all, Token.scan, if_neg (by simp [h]), hnone]
  rfl

theorem all_opener {os : List Glyph} {quoted : Bool} {opened : Position} (h : Opener os quoted opened)
    (gs : List Glyph) :
    Token.all comments (os ++ gs) = ⟨.opening quoted, opened⟩ :: Token.all comments gs := by
  cases h with
  | plain ho =>
    rw [List.singleton_append, all_ofGlyphs (by rw [ho]; rfl) (by simp [ho])]
    simp [Token.ofGlyphs, ho]
  | quoted hq ho =>
    rw [List.cons_append, List.singleton_append, all_ofGlyphs (by rw [hq]; rfl) (by simp [hq])]
    simp [Token.ofGlyphs, Token.startsQuote, hq, ho]

theorem all_closing {c : Glyph} (h : c.char = ')') (gs : List Glyph) :
    Token.all comments (c :: gs) = ⟨.closing, c.position⟩ :: Token.all comments gs := by
  rw [all_ofGlyphs (by rw [h]; rfl) (by simp [h])]
  simp [Token.ofGlyphs, h]

end

theorem all_token {g : Glyph} (h : isBlank g.char = false) (gs : List Glyph) :
    Token.all false (g :: gs) =
      (Token.ofGlyphs g gs).1 :: Token.all false (Token.ofGlyphs g gs).2 :=
  all_ofGlyphs h (by simp)

theorem all_atom {gs rest : List Glyph} {v : Value} (hb : ¬ Bracketed (gs ++ rest))
    (h : Atom gs v rest) :
    ∃ p, Token.all false (gs ++ rest) = ⟨.atom v, p⟩ :: Token.all false rest := by
  obtain ⟨g, more, heq, hblank, hof⟩ := ofGlyphs_of_atom hb h
  exact ⟨g.position, by rw [heq, all_token hblank, hof]⟩

mutual

/-- Reading goes over the text of a form with that form as its only trace. -/
theorem feedAll_form {nesting n : Nat} {gs rest : List Glyph} {v : Value} :
    Form n gs v rest → ∀ r : Reading, r.frames.length + n ≤ nesting →
      feedAll nesting r (Token.all false (gs ++ rest)) =
        feedAll nesting ⟨v :: r.forms, r.frames⟩ (Token.all false rest)
  | .atom hb ha, r, _ => by
    obtain ⟨p, hall⟩ := all_atom hb ha
    rw [hall, feedAll]
    rfl
  | .list (n := n) ho hforms hc, r, hn => by
    have hlt : ¬ nesting ≤ r.frames.length := by omega
    have hn' (f : Frame) : (f :: r.frames).length + n ≤ nesting := by
      rw [List.length_cons]; omega
    rw [List.append_assoc, List.append_assoc, all_opener ho, feedAll]
    simp only [Reading.feed, if_neg hlt]
    rw [List.singleton_append, feedAll_forms hforms ⟨[], _ :: r.frames⟩ (hn' _), all_closing hc,
      feedAll]
    simp [Reading.feed]

theorem feedAll_forms {nesting n : Nat} {gs rest : List Glyph} {vs : List Value} :
    Forms n gs vs rest → ∀ r : Reading, r.frames.length + n ≤ nesting →
      feedAll nesting r (Token.all false (gs ++ rest)) =
        feedAll nesting ⟨vs.reverse ++ r.forms, r.frames⟩ (Token.all false rest)
  | .nil hblanks, r, _ => by rw [all_blanks hblanks]; rfl
  | .cons hblanks hform hforms, r, hn => by
    rw [List.append_assoc, List.append_assoc, all_blanks hblanks, feedAll_form hform r hn,
      feedAll_forms hforms ⟨_ :: r.forms, r.frames⟩ hn]
    simp

end

theorem forms_blank {n : Nat} {g : Glyph} {gs rest : List Glyph} {vs : List Value}
    (hg : isBlank g.char) (h : Forms n gs vs rest) : Forms n (g :: gs) vs rest := by
  cases h with
  | nil hblanks =>
    exact .nil fun x hx => (List.mem_cons.1 hx).elim (fun h => h ▸ hg) (hblanks x)
  | @cons _ blanks gs more _ v vs hblanks hform hforms =>
    have hcons : ∀ x ∈ g :: blanks, isBlank x.char :=
      fun x hx => (List.mem_cons.1 hx).elim (fun h => h ▸ hg) (hblanks x)
    exact .cons hcons hform hforms

theorem forms_cons {n : Nat} {gs more rest : List Glyph} {v : Value} {vs : List Value}
    (h : Form n gs v (more ++ rest)) (hs : Forms n more vs rest) :
    Forms n (gs ++ more) (v :: vs) rest :=
  have hblanks : ∀ g ∈ ([] : List Glyph), isBlank g.char := by simp
  .cons hblanks h hs

theorem forms_singleton {n : Nat} {gs rest : List Glyph} {v : Value} (h : Form n gs v rest) :
    Forms n gs [v] rest := by
  have hnil : Forms n [] [] rest := .nil (by simp)
  have hforms := forms_cons (h : Form n gs v ([] ++ rest)) hnil
  rwa [List.append_nil] at hforms

/-- How reading goes on behind the forms of the innermost list: the text ends, if no list is open, or
the list is closed. -/
inductive Ends (nesting : Nat) (r : Reading) (vs : List Value) : List Glyph → Reading → Prop
  | text : r.frames = [] → Ends nesting r vs [] ⟨vs.reverse ++ r.forms, []⟩
  | close {c : Glyph} {rest : List Glyph} {f : Frame} {fs : List Frame} {r' : Reading} :
    c.char = ')' → r.frames = f :: fs →
    feedAll nesting ⟨.list (r.forms.reverse ++ vs) f.quoted (some f.opened) :: f.before, fs⟩
      (Token.all false rest) = .ok r' →
    Ends nesting r vs (c :: rest) r'

theorem Ends.cons {nesting : Nat} {r r' : Reading} {v : Value} {vs : List Value} {tail : List Glyph}
    (h : Ends nesting ⟨v :: r.forms, r.frames⟩ vs tail r') : Ends nesting r (v :: vs) tail r' := by
  cases h with
  | text hr =>
    have h : Ends nesting r (v :: vs) [] ⟨(v :: vs).reverse ++ r.forms, []⟩ := .text hr
    simpa using h
  | close hc hr hfeed => exact .close hc hr (by simpa using hfeed)

/-- A reading that comes to a good end has read forms up to the end of the innermost list. The
induction is on the length of the text: an opening parenthesis uses it twice, for the list and for what
follows the list. -/
theorem forms_of_feedAll {nesting : Nat} {gs : List Glyph} {r r' : Reading}
    (h : feedAll nesting r (Token.all false gs) = .ok r') (hr' : r'.frames = []) :
    ∃ text vs tail, gs = text ++ tail ∧ Forms (nesting - r.frames.length) text vs tail ∧
      Ends nesting r vs tail r' := by
  induction hlen : gs.length using Nat.strongRecOn generalizing gs r with
  | ind len ih =>
    subst hlen
    cases gs with
    | nil =>
      rw [Token.all, feedAll] at h
      obtain rfl : r = r' := by simpa using h
      obtain ⟨forms, frames⟩ := r
      obtain rfl : frames = [] := hr'
      exact ⟨[], [], [], rfl, .nil (by simp), .text rfl⟩
    | cons g gs =>
      by_cases hblank : isBlank g.char
      · rw [all_blank hblank] at h
        obtain ⟨text, vs, tail, rfl, hforms, hends⟩ := ih gs.length (by simp) h rfl
        exact ⟨g :: text, vs, tail, rfl, forms_blank hblank hforms, hends⟩
      · rw [Bool.not_eq_true] at hblank
        have hlex : Lexed g gs (Token.ofGlyphs g gs) := lexed_ofGlyphs hblank
        have hlen := Token.ofGlyphs_length_le g gs
        rw [all_token hblank] at h
        generalize Token.ofGlyphs g gs = t at h hlex hlen
        cases hlex with
        | closing hg =>
          rw [feedAll] at h
          cases hframes : r.frames with
          | nil => simp [Reading.feed, hframes] at h
          | cons f fs =>
            simp only [Reading.feed, hframes] at h
            exact ⟨[], [], g :: gs, rfl, .nil (by simp), .close hg hframes (by simpa using h)⟩
        | @opening os more quoted opened heq ho =>
          rw [feedAll] at h
          by_cases hfull : nesting ≤ r.frames.length
          · simp [Reading.feed, hfull] at h
          · simp only [Reading.feed, if_neg hfull] at h
            obtain ⟨inner, items, tail, rfl, hitems, hends⟩ :=
              ih more.length (by simp at hlen ⊢; omega) h rfl
            cases hends with
            | text hr => simp at hr
            | @close c rest f fs _ hc hr hfeed =>
              obtain ⟨rfl, rfl⟩ := List.cons.inj hr
              obtain ⟨text, vs, tail, rfl, hforms, hends⟩ :=
                ih rest.length (by simp at hlen ⊢; omega) hfeed rfl
              have hdepth : nesting - r.frames.length = nesting - (r.frames.length + 1) + 1 := by omega
              have hform : Form (nesting - r.frames.length) (os ++ inner ++ [c])
                  (.list items quoted (some opened)) (text ++ tail) := by
                rw [hdepth]
                exact .list ho hitems hc
              exact ⟨os ++ inner ++ [c] ++ text, _, tail, by rw [heq]; simp,
                forms_cons hform hforms, hends.cons⟩
        | @atom lexeme rest v heq hb ha =>
          rw [feedAll] at h
          obtain ⟨text, vs, tail, rfl, hforms, hends⟩ :=
            ih rest.length (by simp at hlen ⊢; omega) h rfl
          rw [heq] at hb
          exact ⟨lexeme ++ text, v :: vs, tail, by rw [heq, List.append_assoc],
            forms_cons (.atom hb ha) hforms, hends.cons⟩
        | fault f p => simp [feedAll, Reading.feed] at h

theorem readForms_of_program {nesting : Nat} {source : String} {vs : List Value}
    (h : Program nesting source vs) : readForms ⟨false, nesting⟩ source = .ok vs := by
  have hfeed := feedAll_forms h {} (by simp : 0 + nesting ≤ nesting)
  rw [List.append_nil, Token.all, feedAll] at hfeed
  rw [readForms, formsOfTokens, hfeed]
  simp [Reading.finish]

theorem program_of_readForms {nesting : Nat} {source : String} {vs : List Value}
    (h : readForms ⟨false, nesting⟩ source = .ok vs) : Program nesting source vs := by
  rw [readForms, formsOfTokens] at h
  cases hfeed : feedAll nesting {} (Token.all false (Glyph.ofText source)) with
  | error e => simp [hfeed] at h
  | ok r =>
    simp only [hfeed, Reading.finish] at h
    cases hr : r.frames with
    | cons f fs => simp [hr] at h
    | nil =>
      simp only [hr, Except.ok.injEq] at h
      obtain ⟨text, forms, tail, heq, hforms, hends⟩ := forms_of_feedAll hfeed hr
      cases hends with
      | close _ hframes _ => simp at hframes
      | text =>
        obtain rfl : forms = vs := by simpa using h
        rw [List.append_nil] at heq
        rw [Program, heq]
        exact hforms

/-- The reader accepts exactly its grammar: a text is read as some forms if and only if it derives
them, with the lists where they stand in the text, and it derives no others. -/
theorem readForms_eq_ok_iff (nesting : Nat) (source : String) :
    (∀ vs, readForms ⟨false, nesting⟩ source = .ok vs ↔ Program nesting source vs) ∧
    ∀ vs ws, Program nesting source vs → Program nesting source ws → vs = ws := by
  constructor
  · intro vs
    exact ⟨program_of_readForms, readForms_of_program⟩
  · intro vs ws hvs hws
    have h := readForms_of_program hvs
    rw [readForms_of_program hws] at h
    exact (Except.ok.inj h).symm

end MiniLisp.Grammar
