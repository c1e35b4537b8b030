import MiniLisp.Proofs.Grammar

/-! Atoms by trial. Instead of looking at the first characters of an atom to tell what it is, one may try
to read a number there, then a string, a keyword and a symbol, and take the first of these that is found.
This comes to the same (`token_atom`); in particular one of them is always found. -/

namespace MiniLisp

open Grammar

/-- What comes of trying to read an atom of one kind: it is read, and leaves the rest; there is none of
that kind; or it is one, but spoilt. -/
inductive Attempt where
  | found (v : Value) (rest : List Glyph)
  | absent
  | spoilt (f : ReadFault) (p : Position)

namespace Attempt

def orElse : Attempt → Attempt → Attempt
  | absent, other => other
  | a, _ => a

def name (read : String → Value) (gs : List Glyph) : Attempt :=
  if gs.takeWhile Glyph.inName = [] then absent
  else found (read (String.ofList (Token.chars (gs.takeWhile Glyph.inName)))) (gs.dropWhile Glyph.inName)

def digits (sign : List Glyph) : List Glyph → Attempt
  | [] => absent
  | d :: gs =>
    if d.isDigit then
      found (.number (Number.read (Token.chars (sign ++ d :: gs.takeWhile Glyph.inNumber))))
        (gs.dropWhile Glyph.inNumber)
    else absent

def number : List Glyph → Attempt
  | [] => absent
  | g :: gs => if g.char == '-' then digits [g] gs else digits [] (g :: gs)

def string : List Glyph → Attempt
  | [] => absent
  | g :: gs =>
    if g.char == '"' then
      match Token.stringBody gs with
      | (cs, .closed rest) => found (.string (String.ofList cs)) rest
      | (_, .cut) => spoilt .unterminatedString g.position
      | (_, .escape e) => spoilt (.badEscape e.char) e.position
    else absent

def keyword : List Glyph → Attempt
  | [] => absent
  | g :: gs => if g.char == ':' then name .keyword gs else absent

def symbol (gs : List Glyph) : Attempt := name .symbol gs

def atom (gs : List Glyph) : Attempt :=
  (number gs).orElse ((string gs).orElse ((keyword gs).orElse (symbol gs)))

/-- The token that an attempt at `p` makes, and the text behind it. -/
def token (p : Position) : Attempt → Option (Token × List Glyph)
  | found v rest => some (⟨.atom v, p⟩, rest)
  | absent => none
  | spoilt f q => some (⟨.fault f, q⟩, [])

theorem orElse_of_token {a : Attempt} {p : Position} {t : Token × List Glyph} (h : a.token p = some t)
    (other : Attempt) : a.orElse other = a := by
  cases a with
  | absent => cases h
  | found v rest => rfl
  | spoilt f q => rfl

section

variable {g : Glyph} {gs : List Glyph}

theorem number_of_start (h : NumberStart (g :: gs)) :
    number (g :: gs) = found (.number (Number.read (Token.chars (g :: gs.takeWhile Glyph.inNumber))))
      (gs.dropWhile Glyph.inNumber) := by
  rcases h with hd | ⟨hg, d, hhead, hd⟩
  · have hsign : g.char ≠ '-' := by
      intro heq
      simp [Glyph.isDigit, heq] at hd
    simp [number, digits, hsign, hd]
  · obtain ⟨more, rfl⟩ := List.head?_eq_some_iff.1 hhead
    have hin : d.inNumber := by simp [Glyph.inNumber, hd]
    simp [number, digits, hg, hd, hin]

theorem number_of_not_start (h : ¬ NumberStart (g :: gs)) : number (g :: gs) = absent := by
  rw [NumberStart, not_or] at h
  obtain ⟨hdigit, hminus⟩ := h
  by_cases hg : g.char = '-'
  · cases gs with
    | nil => simp [number, digits, hg]
    | cons d gs =>
      have hd : ¬ d.isDigit := fun hd => hminus ⟨hg, d, rfl, hd⟩
      simp [number, digits, hg, hd]
  · simp [number, digits, hg, hdigit]

theorem token_string (h : g.char = '"') :
    (string (g :: gs)).token g.position = some (Token.ofString g gs) := by
  rw [string, if_pos (by simpa using h), Token.ofString]
  obtain ⟨cs, fin⟩ := Token.stringBody gs
  cases fin <;> rfl

theorem takeWhile_inName_eq_nil_iff :
    gs.takeWhile Glyph.inName = [] ↔ ¬ ∃ n ∈ gs.head?, n.inName := by
  cases gs with
  | nil => simp
  | cons n gs => simp [List.takeWhile_cons]

theorem keyword_of_start (h : KeywordStart (g :: gs)) :
    keyword (g :: gs) = found (.keyword (String.ofList (Token.chars (gs.takeWhile Glyph.inName))))
      (gs.dropWhile Glyph.inName) := by
  have hname : gs.takeWhile Glyph.inName ≠ [] := mt takeWhile_inName_eq_nil_iff.1 (not_not.2 h.2)
  rw [keyword, if_pos (by simpa using h.1), name, if_neg hname]

theorem keyword_of_not_start (h : ¬ KeywordStart (g :: gs)) : keyword (g :: gs) = absent := by
  by_cases hg : g.char = ':'
  · have hname : gs.takeWhile Glyph.inName = [] := takeWhile_inName_eq_nil_iff.2 fun hn => h ⟨hg, hn⟩
    rw [keyword, if_pos (by simpa using hg), name, if_pos hname]
  · rw [keyword, if_neg (by simpa using hg)]

theorem symbol_of_inName (h : g.inName) :
    symbol (g :: gs) = found (.symbol (String.ofList (Token.chars (g :: gs.takeWhile Glyph.inName))))
      (gs.dropWhile Glyph.inName) := by
  simp [symbol, name, h]

end

/-- Trying the kinds of atoms in turn finds what the first characters tell, wherever a text starts with
neither white space nor what opens or closes a list. -/
theorem token_atom {g : Glyph} {gs : List Glyph} (hblank : isBlank g.char = false)
    (hb : ¬ Bracketed (g :: gs)) :
    (atom (g :: gs)).token g.position = some (Token.ofGlyphs g gs) := by
  by_cases hnumber : NumberStart (g :: gs)
  · rw [atom, number_of_start hnumber, ofGlyphs_number hb hnumber]
    rfl
  rw [atom, number_of_not_start hnumber, orElse]
  by_cases hstring : g.char = '"'
  · have htoken : (string (g :: gs)).token g.position = some (Token.ofString g gs) := token_string hstring
    rw [orElse_of_token htoken, htoken, ofGlyphs_string hb hstring]
  rw [string, if_neg (by simpa using hstring), orElse]
  by_cases hkeyword : KeywordStart (g :: gs)
  · rw [keyword_of_start hkeyword, ofGlyphs_keyword hb hkeyword]
    rfl
  · have hname : g.inName := by
      rw [bracketed_iff, not_or, not_or] at hb
      exact inName_iff.2 ⟨hblank, hb.1, hb.2.1⟩
    rw [keyword_of_not_start hkeyword, orElse, symbol_of_inName hname,
      ofGlyphs_symbol hb hnumber hstring hkeyword]
    rfl

end Attempt

end MiniLisp
