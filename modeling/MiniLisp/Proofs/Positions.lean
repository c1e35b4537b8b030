import Mathlib.Data.List.Induction
import MiniLisp.Proofs.Relocation
import MiniLisp.Proofs.Tracking

/-! Where lists stand. A position is what it says: the line is one more than the newlines before it, and
the column one more than the characters behind the last of them (`Position.after_eq`). Positions grow
along a text (`pairwise_place`), and each list of a program has the position at which the text opens it
(`readForms_positions`). -/

namespace MiniLisp

open Value

/-- The one position comes before the other, by line and then by column. -/
def Position.Before (p q : Position) : Prop :=
  p.line < q.line ∨ p.line = q.line ∧ p.column < q.column

theorem Position.before_next (p : Position) (c : Char) : p.Before (p.next c) := by
  unfold Position.Before Position.next
  split_ifs
  · exact Or.inl (Nat.lt_succ_self _)
  · exact Or.inr ⟨rfl, Nat.lt_succ_self _⟩

theorem Position.Before.trans {p q r : Position} (h : p.Before q) (h' : q.Before r) : p.Before r := by
  unfold Position.Before at *
  omega

theorem before_of_mem_place {p q : Position} (h : p.Before q) (cs : List Char) :
    ∀ g ∈ Glyph.place q cs, p.Before g.position := by
  induction cs generalizing q with
  | nil => simp [Glyph.place]
  | cons c cs ih =>
    rw [Glyph.place, List.forall_mem_cons]
    exact ⟨h, ih (h.trans (q.before_next c))⟩

theorem pairwise_place (p : Position) (cs : List Char) :
    (Glyph.place p cs).Pairwise fun g h => g.position.Before h.position := by
  induction cs generalizing p with
  | nil => exact .nil
  | cons c cs ih => exact .cons (before_of_mem_place (p.before_next c) cs) (ih (p.next c))

theorem Position.after_concat (p : Position) (cs : List Char) (c : Char) :
    p.after (cs ++ [c]) = (p.after cs).next c := by
  rw [Position.after, List.foldl_append]
  rfl

theorem Position.after_eq (cs : List Char) :
    Position.start.after cs =
      ⟨1 + cs.count '\n', 1 + (cs.reverse.takeWhile (· != '\n')).length⟩ := by
  induction cs using List.reverseRecOn with
  | nil => rfl
  | append_singleton cs c ih =>
    rw [Position.after_concat, ih, Position.next, List.reverse_concat, List.takeWhile_cons]
    by_cases hc : c = '\n'
    · simp [hc, Nat.add_assoc]
    · simp [hc, Nat.add_comm]

theorem position_of_place {p : Position} {cs : List Char} {before after : List Glyph} {g : Glyph}
    (h : Glyph.place p cs = before ++ g :: after) : g.position = p.after (Token.chars before) := by
  induction before generalizing p cs with
  | nil =>
    cases cs with
    | nil => cases h
    | cons c cs =>
      cases h
      rfl
  | cons x before ih =>
    cases cs with
    | nil => cases h
    | cons c cs =>
      obtain ⟨rfl, htail⟩ := List.cons.inj h
      exact ih htail

namespace Layout

theorem start_cases (skips : List Glyph → Bool) (g : Glyph) (gs : List Glyph) :
    start skips g gs = (.opening false, .between) ∧ g.char = '(' ∨
    start skips g gs = (.opening true, .opening) ∧ g.char = '\x27' ∧ (∃ o ∈ gs.head?, o.char = '(') ∨
    (∀ quoted, (start skips g gs).1 ≠ .opening quoted) ∧ (start skips g gs).2 ≠ .opening := by
  unfold start
  split
  · exact Or.inr (Or.inr ⟨nofun, nofun⟩)
  split
  · exact Or.inr (Or.inr ⟨nofun, nofun⟩)
  split
  · rename_i hopen
    exact Or.inl ⟨rfl, beq_iff_eq.1 hopen⟩
  split
  · rename_i hquote
    exact Or.inr (Or.inl ⟨rfl, Grammar.startsQuote_iff.1 hquote⟩)
  iterate 3
    split
    · exact Or.inr (Or.inr ⟨nofun, nofun⟩)
  exact Or.inr (Or.inr ⟨nofun, nofun⟩)

/-- Lists start at token boundaries only. -/
theorem step_cases (skips : List Glyph → Bool) (mode : Mode) (g : Glyph) (gs : List Glyph) :
    step skips mode g gs = (.opening false, .between) ∧ g.char = '(' ∨
    step skips mode g gs = (.opening true, .opening) ∧ g.char = '\x27' ∧ (∃ o ∈ gs.head?, o.char = '(') ∨
    (∀ quoted, (step skips mode g gs).1 ≠ .opening quoted) ∧ (step skips mode g gs).2 ≠ .opening := by
  unfold step
  split
  · exact start_cases skips g gs
  · exact Or.inr (Or.inr ⟨nofun, nofun⟩)
  · split
    · exact Or.inr (Or.inr ⟨nofun, nofun⟩)
    · exact start_cases skips g gs
  · split
    · exact Or.inr (Or.inr ⟨nofun, nofun⟩)
    · exact start_cases skips g gs
  · refine Or.inr (Or.inr ?_)
    split
    · exact ⟨nofun, nofun⟩
    · split <;> exact ⟨nofun, nofun⟩
  · exact Or.inr (Or.inr ⟨nofun, nofun⟩)
  · refine Or.inr (Or.inr ?_)
    split <;> exact ⟨nofun, nofun⟩

/-- Each character has the role that it takes on in some mode before those that follow it; and that mode
is the one that the character before it has left. -/
theorem role_of_marks {skips : List Glyph → Bool} {mode : Mode} {gs : List Glyph}
    {before after : List Mark} {m : Mark} (h : marks skips mode gs = before ++ m :: after) :
    ∃ mode', m.role = (step skips mode' m.toGlyph (after.map Mark.toGlyph)).1 ∧
      (before = [] ∧ mode' = mode ∨ ∃ q ∈ before.getLast?, ∃ mode'' more,
        step skips mode'' q.toGlyph more = (q.role, mode')) := by
  induction before generalizing mode gs with
  | nil =>
    cases gs with
    | nil => cases h
    | cons g gs =>
      obtain ⟨rfl, rfl⟩ := List.cons.inj h
      exact ⟨mode, by rw [toGlyph_marks], Or.inl ⟨rfl, rfl⟩⟩
  | cons x before ih =>
    cases gs with
    | nil => cases h
    | cons g gs =>
      obtain ⟨rfl, htail⟩ := List.cons.inj h
      obtain ⟨mode', hrole, hlast⟩ := ih htail
      refine ⟨mode', hrole, Or.inr ?_⟩
      rcases hlast with ⟨rfl, rfl⟩ | ⟨q, hq, hstep⟩
      · exact ⟨_, rfl, mode, gs, rfl⟩
      · refine ⟨q, ?_, hstep⟩
        rw [List.getLast?_cons, Option.mem_def.1 hq]
        rfl

theorem step_parenthesis {skips : List Glyph → Bool} {mode : Mode} {g : Glyph} {gs : List Glyph}
    (h : g.char = '(') (hmode : mode ≠ .opening) :
    (step skips mode g gs).1 ∈ [.opening false, .text, .escape, .comment] := by
  have hstart : start skips g gs = (.opening false, .between) := by simp [start, h, isBlank]
  have hnumber : g.inNumber = false := by simp [Glyph.inNumber, Glyph.isDigit, h]
  have hname : g.inName = false := by simp [Glyph.inName, Glyph.isDelimiter, h]
  cases mode with
  | opening => exact absurd rfl hmode
  | _ => simp [step, hstart, hnumber, hname, h]

theorem chars_ofText (comments : Bool) (source : String) :
    (ofText comments source).map (·.char) = source.toList := by
  have hglyphs := toGlyph_marks (skipped comments) .between (Glyph.ofText source)
  have hchars := congrArg Token.chars hglyphs
  rwa [Token.chars, List.map_map, Glyph.ofText, Grammar.chars_place] at hchars

theorem position_ofText {comments : Bool} {source : String} {before after : List Mark} {m : Mark}
    (h : ofText comments source = before ++ m :: after) :
    m.position = Position.start.after (before.map (·.char)) := by
  have hglyphs := toGlyph_marks (skipped comments) .between (Glyph.ofText source)
  rw [← ofText, h, List.map_append, List.map_cons] at hglyphs
  rw [position_of_place hglyphs.symm, Token.chars, List.map_map]
  rfl

theorem pairwise_openings (comments : Bool) (source : String) :
    (openings (ofText comments source)).Pairwise fun o o' => o.2.Before o'.2 := by
  have hglyphs := pairwise_place .start source.toList
  rw [← Glyph.ofText, ← toGlyph_marks (skipped comments) .between (Glyph.ofText source), ← ofText,
    List.pairwise_map] at hglyphs
  rw [openings, List.pairwise_filterMap]
  refine hglyphs.imp ?_
  intro m m' hbefore o ho o' ho'
  split at ho
  · split at ho'
    · cases ho
      cases ho'
      exact hbefore
    · cases ho'
  · cases ho

theorem char_of_opening {comments : Bool} {source : String} {before after : List Mark} {m : Mark}
    (h : ofText comments source = before ++ m :: after) :
    (m.role = .opening false → m.char = '(') ∧
    (m.role = .opening true → m.char = '\x27' ∧ ∃ o ∈ after.head?, o.char = '(') := by
  obtain ⟨mode, hrole, -⟩ := role_of_marks h
  have hcases := step_cases (skipped comments) mode m.toGlyph (after.map Mark.toGlyph)
  constructor
  · intro hm
    rw [hm] at hrole
    rcases hcases with ⟨-, hopen⟩ | ⟨hquoted, -⟩ | ⟨hother, -⟩
    · exact hopen
    · simp [hquoted] at hrole
    · exact absurd hrole.symm (hother false)
  · intro hm
    rw [hm] at hrole
    rcases hcases with ⟨hplain, -⟩ | ⟨-, hquote, o, ho, hopen⟩ | ⟨hother, -⟩
    · simp [hplain] at hrole
    · rw [List.head?_map] at ho
      obtain ⟨x, hx, rfl⟩ := Option.map_eq_some_iff.1 ho
      exact ⟨hquote, x, hx, hopen⟩
    · exact absurd hrole.symm (hother true)

theorem role_of_parenthesis {comments : Bool} {source : String} {before after : List Mark} {m : Mark}
    (h : ofText comments source = before ++ m :: after) (hm : m.char = '(') :
    m.role ∈ [.opening false, .text, .escape, .comment] ∨ ∃ q ∈ before.getLast?, q.role = .opening true := by
  obtain ⟨mode, hrole, hlast⟩ := role_of_marks h
  by_cases hmode : mode = .opening
  · subst hmode
    obtain ⟨q, hq, mode, more, hstep⟩ := hlast.resolve_left nofun
    refine Or.inr ⟨q, hq, ?_⟩
    rcases step_cases (skipped comments) mode q.toGlyph more with ⟨hplain, -⟩ | ⟨hquoted, -⟩ | ⟨-, hother⟩
    · simp [hplain] at hstep
    · exact (congrArg Prod.fst hstep).symm.trans (congrArg Prod.fst hquoted)
    · exact absurd (congrArg Prod.snd hstep) hother
  · rw [hrole]
    exact Or.inl (step_parenthesis hm hmode)

end Layout

open Layout

/-- The positions of lists are faithful. The lists of a text that is read, each before those in it, are
opened one after another where the text opens lists outside strings and comments. Lines count the newlines
before a character, and columns the characters behind the last of them. -/
theorem readForms_positions (config : ReaderConfig) (source : String) (vs : List Value)
    (h : readForms config source = .ok vs) :
    (listNodes vs).map (fun n => (n.quoted, n.opened)) =
      (openings (ofText config.comments source)).map (fun o => (o.1, some o.2)) ∧
    (openings (ofText config.comments source)).Pairwise (fun o o' => o.2.Before o'.2) ∧
    (ofText config.comments source).map (·.char) = source.toList ∧
    ∀ (before : List Mark) (m : Mark) (after : List Mark),
      ofText config.comments source = before ++ m :: after →
      m.position = ⟨1 + (before.map (·.char)).count '\n',
        1 + ((before.map (·.char)).reverse.takeWhile (· != '\n')).length⟩ ∧
      (m.role = .opening false → m.char = '(') ∧
      (m.role = .opening true → m.char = '\x27' ∧ ∃ o ∈ after.head?, o.char = '(') ∧
      (m.char = '(' → m.role ∈ [.opening false, .text, .escape, .comment] ∨
        ∃ q ∈ before.getLast?, q.role = .opening true) := by
  refine ⟨?_, pairwise_openings _ _, chars_ofText _ _, ?_⟩
  · have hjudged := judged_ofText config source
    rw [formsOfTokens_eq_ok_iff.1 h] at hjudged
    rw [← nodes_of_closed]
    exact hjudged.nodes
  · intro before m after heq
    have hposition := position_ofText heq
    rw [Position.after_eq] at hposition
    obtain ⟨hplain, hquoted⟩ := char_of_opening heq
    exact ⟨hposition, hplain, hquoted, role_of_parenthesis heq⟩

/-- Of four opening parentheses one is in a comment and one in a string, which goes over the end of a line;
the first is quoted, behind a character that is not ASCII. -/
theorem readForms_positions_skipped :
    readForms ⟨true, 2⟩ "é '(a\n; (x)\n \"(\n\" (b))" =
      .ok [.symbol "é", .list [.symbol "a", .string "(\n", .list [.symbol "b"] false (some ⟨4, 3⟩)] true
        (some ⟨1, 3⟩)] ∧
    [(true, some ⟨1, 3⟩), (false, some ⟨4, 3⟩)] =
      (openings (ofText true "é '(a\n; (x)\n \"(\n\" (b))")).map (fun o => (o.1, some o.2)) := by
  have hread : readForms ⟨true, 2⟩ "é '(a\n; (x)\n \"(\n\" (b))" =
      .ok [.symbol "é", .list [.symbol "a", .string "(\n", .list [.symbol "b"] false (some ⟨4, 3⟩)] true
        (some ⟨1, 3⟩)] := by decide +kernel
  exact ⟨hread, (readForms_positions _ _ _ hread).1⟩

end MiniLisp
