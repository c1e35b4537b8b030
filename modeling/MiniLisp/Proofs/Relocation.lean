import MiniLisp.Proofs.Erasure
import MiniLisp.Proofs.Grammar

/-! Text that stands elsewhere. The reader looks at the characters of a text and only notes down where
they are: with `f` applied to the position of every glyph, it goes through the same steps, and `f` has
been applied to the positions in all that it gives (`formsOfTokens_move`). Text that starts some lines
further down is one such case (`place_down`). -/

namespace MiniLisp

section

variable (f : Position → Position)

def Glyph.move (g : Glyph) : Glyph := ⟨g.char, f g.position⟩

/-- The value with its lists where `f` puts them; a list without a position has none there either. -/
def Value.move (v : Value) : Value := v.reposition (Option.map f)

def ReadFault.move : ReadFault → ReadFault
  | .unclosed opened => .unclosed (f opened)
  | fault => fault

def ReadError.move (e : ReadError) : ReadError := ⟨e.fault.move f, f e.position⟩

def Lexeme.move : Lexeme → Lexeme
  | .atom v => .atom (v.move f)
  | .fault reason => .fault (reason.move f)
  | lexeme => lexeme

def Token.move (t : Token) : Token := ⟨t.lexeme.move f, f t.position⟩

def StringEnd.move : StringEnd → StringEnd
  | .closed rest => .closed (rest.map (Glyph.move f))
  | .cut => .cut
  | .escape g => .escape (g.move f)

def Frame.move (frame : Frame) : Frame :=
  ⟨frame.quoted, f frame.opened, frame.before.map (Value.move f)⟩

def Reading.move (r : Reading) : Reading := ⟨r.forms.map (Value.move f), r.frames.map (Frame.move f)⟩

end

@[simp] theorem Glyph.char_move (f : Position → Position) (g : Glyph) : (g.move f).char = g.char := rfl

theorem ReadFault.kind_move (f : Position → Position) (fault : ReadFault) :
    (fault.move f).kind = fault.kind := by
  cases fault <;> rfl

theorem ReadFault.found_move (f : Position → Position) (fault : ReadFault) :
    (fault.move f).found = fault.found := by
  cases fault <;> rfl

theorem Value.bare_move (f : Position → Position) (v : Value) : (v.move f).bare = v.bare :=
  bare_reposition _ v

theorem Value.map_bare_move (f : Position → Position) (vs : List Value) :
    (vs.map (Value.move f)).map Value.bare = vs.map Value.bare := by
  rw [List.map_map]
  exact List.map_congr_left fun v _ => v.bare_move f

/-! Tokens. -/

namespace Token

variable (f : Position → Position)

theorem chars_move (gs : List Glyph) : chars (gs.map (Glyph.move f)) = chars gs := by
  rw [chars, List.map_map]
  rfl

theorem takeWhile_move {p : Glyph → Bool} (hp : ∀ g : Glyph, p (g.move f) = p g) (gs : List Glyph) :
    (gs.map (Glyph.move f)).takeWhile p = (gs.takeWhile p).map (Glyph.move f) := by
  rw [List.takeWhile_map]
  exact congrArg (fun q => (gs.takeWhile q).map (Glyph.move f)) (funext hp)

theorem dropWhile_move {p : Glyph → Bool} (hp : ∀ g : Glyph, p (g.move f) = p g) (gs : List Glyph) :
    (gs.map (Glyph.move f)).dropWhile p = (gs.dropWhile p).map (Glyph.move f) := by
  rw [List.dropWhile_map]
  exact congrArg (fun q => (gs.dropWhile q).map (Glyph.move f)) (funext hp)

theorem any_head?_move {p : Glyph → Bool} (hp : ∀ g : Glyph, p (g.move f) = p g) (gs : List Glyph) :
    (gs.map (Glyph.move f)).head?.any p = gs.head?.any p := by
  cases gs with
  | nil => rfl
  | cons g gs => exact hp g

theorem stringBody_move (gs : List Glyph) :
    stringBody (gs.map (Glyph.move f)) = ((stringBody gs).1, (stringBody gs).2.move f) := by
  fun_induction stringBody gs with
  | case1 => rfl
  | case2 g gs hq =>
    rw [List.map_cons, stringBody.eq_def]
    simp [hq, StringEnd.move]
  | case3 g hq hb =>
    rw [List.map_cons, stringBody.eq_def]
    simp [hq, hb, StringEnd.move]
  | case4 g hq hb e gs c hc cs fin hs ih =>
    rw [List.map_cons, List.map_cons, stringBody.eq_def]
    simp [hq, hb, hc, ih, hs]
  | case5 g hq hb e gs hc =>
    rw [List.map_cons, List.map_cons, stringBody.eq_def]
    simp [hq, hb, hc, StringEnd.move]
  | case6 g gs hq hb cs fin hs ih =>
    rw [List.map_cons, stringBody.eq_def]
    simp [hq, hb, ih, hs]

theorem ofString_move (g : Glyph) (gs : List Glyph) :
    ofString (g.move f) (gs.map (Glyph.move f)) =
      ((ofString g gs).1.move f, (ofString g gs).2.map (Glyph.move f)) := by
  rw [ofString, stringBody_move, ofString]
  obtain ⟨cs, fin⟩ := stringBody gs
  cases fin <;> rfl

theorem ofGlyphs_move (g : Glyph) (gs : List Glyph) :
    ofGlyphs (g.move f) (gs.map (Glyph.move f)) =
      ((ofGlyphs g gs).1.move f, (ofGlyphs g gs).2.map (Glyph.move f)) := by
  have hquote : startsQuote (g.move f) (gs.map (Glyph.move f)) = startsQuote g gs :=
    congrArg (g.char == '\x27' && ·) (any_head?_move f (fun _ => rfl) gs)
  have hnumber : startsNumber (g.move f) (gs.map (Glyph.move f)) = startsNumber g gs :=
    congrArg (g.isDigit || g.char == '-' && ·) (any_head?_move f (fun _ => rfl) gs)
  have hkeyword : startsKeyword (g.move f) (gs.map (Glyph.move f)) = startsKeyword g gs :=
    congrArg (g.char == ':' && ·) (any_head?_move f (fun _ => rfl) gs)
  rw [ofGlyphs, ofGlyphs, hquote, hnumber, hkeyword, takeWhile_move f fun _ => rfl,
    takeWhile_move f fun _ => rfl, dropWhile_move f fun _ => rfl, dropWhile_move f fun _ => rfl,
    ofString_move, ← List.map_cons, ← List.map_cons, chars_move, chars_move, chars_move, ← List.map_tail,
    Glyph.char_move]
  split_ifs <;> rfl

theorem afterComment_move (gs : List Glyph) :
    afterComment (gs.map (Glyph.move f)) = (afterComment gs).map (List.map (Glyph.move f)) := by
  rw [afterComment, afterComment, dropWhile_move f fun _ => rfl]
  cases gs.dropWhile fun g => !g.isLineEnd with
  | nil => rfl
  | cons g rest =>
    have hnewline := @any_head?_move f (·.char == '\n') (fun _ => rfl) rest
    rw [List.map_cons]
    dsimp only
    rw [hnewline, Glyph.char_move]
    split_ifs <;> rfl

theorem scan_move (comments : Bool) (g : Glyph) (gs : List Glyph) :
    scan comments (g.move f) (gs.map (Glyph.move f)) =
      ((scan comments g gs).1.map (Token.move f), (scan comments g gs).2.map (Glyph.move f)) := by
  rw [scan, scan, afterComment_move, ofGlyphs_move, Glyph.char_move]
  by_cases hblank : isBlank g.char
  · rw [if_pos hblank, if_pos hblank]
    rfl
  · rw [if_neg hblank, if_neg hblank]
    by_cases hcomment : comments && g.char == ';'
    · rw [if_pos hcomment, if_pos hcomment]
      cases afterComment gs <;> rfl
    · rw [if_neg hcomment, if_neg hcomment]
      rfl

theorem all_move (comments : Bool) (gs : List Glyph) :
    all comments (gs.map (Glyph.move f)) = (all comments gs).map (Token.move f) := by
  fun_induction all comments gs with
  | case1 => rw [List.map_nil, all, List.map_nil]
  | case2 g gs ih =>
    rw [List.map_cons, all, scan_move, ih, List.map_append]
    cases (scan comments g gs).1 <;> rfl

end Token

/-! Readings. -/

namespace Reading

variable (f : Position → Position) (nesting : Nat)

theorem feed_move (r : Reading) (t : Token) :
    (r.move f).feed nesting (t.move f) =
      ((r.feed nesting t).map (Reading.move f)).mapError (ReadError.move f) := by
  obtain ⟨lexeme, p⟩ := t
  obtain ⟨forms, frames⟩ := r
  cases lexeme with
  | atom v => rfl
  | fault fault => rfl
  | opening quoted =>
    simp only [feed, Token.move, Lexeme.move, Reading.move, List.length_map]
    split_ifs <;> rfl
  | closing =>
    cases frames with
    | nil => rfl
    | cons frame frames =>
      simp [feed, Token.move, Lexeme.move, Reading.move, Frame.move, Value.move, Value.reposition_list,
        Except.map, Except.mapError]

theorem feedAll_move (r : Reading) (ts : List Token) :
    feedAll nesting (r.move f) (ts.map (Token.move f)) =
      ((feedAll nesting r ts).map (Reading.move f)).mapError (ReadError.move f) := by
  induction ts generalizing r with
  | nil => rfl
  | cons t ts ih =>
    rw [List.map_cons, feedAll, feed_move, feedAll]
    cases r.feed nesting t with
    | ok r' => exact ih r'
    | error e => rfl

theorem finish_move (r : Reading) :
    (r.move f).finish = (r.finish.map (List.map (Value.move f))).mapError (ReadError.move f) := by
  obtain ⟨forms, frames⟩ := r
  cases frames with
  | nil => exact congrArg Except.ok List.map_reverse.symm
  | cons frame frames => rfl

end Reading

theorem formsOfTokens_move (f : Position → Position) (nesting : Nat) (ts : List Token) :
    formsOfTokens nesting (ts.map (Token.move f)) =
      ((formsOfTokens nesting ts).map (List.map (Value.move f))).mapError (ReadError.move f) := by
  have hfeed := Reading.feedAll_move f nesting {} ts
  rw [formsOfTokens, formsOfTokens]
  change Reading.feedAll nesting {} _ = _ at hfeed
  rw [hfeed]
  cases Reading.feedAll nesting {} ts with
  | ok r => exact Reading.finish_move f r
  | error e => rfl

/-! Lines. -/

/-- The position `k` lines further down. -/
def Position.down (k : Nat) (p : Position) : Position := ⟨p.line + k, p.column⟩

/-- The position behind some characters. -/
def Position.after (p : Position) (cs : List Char) : Position := cs.foldl Position.next p

theorem place_append_after (p : Position) (cs ds : List Char) :
    Glyph.place p (cs ++ ds) = Glyph.place p cs ++ Glyph.place (p.after cs) ds := by
  induction cs generalizing p with
  | nil => rfl
  | cons c cs ih => exact congrArg (_ :: ·) (ih (p.next c))

theorem Position.next_down (k : Nat) (p : Position) (c : Char) :
    (p.down k).next c = (p.next c).down k := by
  unfold Position.next Position.down
  split_ifs
  · simp only [Position.mk.injEq, and_true]
    omega
  · rfl

theorem place_down (k : Nat) (p : Position) (cs : List Char) :
    Glyph.place (p.down k) cs = (Glyph.place p cs).map (Glyph.move (Position.down k)) := by
  induction cs generalizing p with
  | nil => rfl
  | cons c cs ih =>
    rw [Glyph.place, Position.next_down, ih]
    rfl

theorem Position.line_after (p : Position) (cs : List Char) :
    (p.after cs).line = p.line + cs.count '\n' := by
  induction cs generalizing p with
  | nil => rfl
  | cons c cs ih =>
    rw [Position.after, List.foldl_cons, ← Position.after, ih, Position.next, List.count_cons]
    split_ifs
    · dsimp only
      omega
    · rfl

/-- Behind a newline, text starts as it does at the very start, but further down. -/
theorem Position.after_newline (cs : List Char) :
    Position.start.after (cs ++ ['\n']) = Position.start.down (cs.count '\n' + 1) := by
  have hline := Position.start.line_after cs
  rw [Position.after, List.foldl_append, List.foldl_cons, List.foldl_nil, ← Position.after]
  simp only [Position.next, Position.down, beq_self_eq_true, if_true, hline, Position.mk.injEq]
  exact ⟨by omega, rfl⟩

end MiniLisp
