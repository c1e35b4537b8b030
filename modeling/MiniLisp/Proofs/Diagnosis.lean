import MiniLisp.Proofs.Attempts
import MiniLisp.Proofs.Positions

/-! What the reader finds wrong with a text. An error of the reader is always something wrong with the
layout of the text, and a text that is read has nothing wrong with it; since no text has two things wrong
with it (`Diagnosis.unique`), the reader finds whatever is wrong (`diagnosis_iff`). -/

namespace MiniLisp

open Grammar

namespace Layout

/-! One thing at most is wrong with a text. -/

/-- A place in a text, told by what is before it, the character, and what is behind it. -/
abbrev Place := List Mark → Mark → List Mark → Prop

/-- Of two such places in one text, neither is behind the other. -/
def Place.Sole (P : Place) : Prop :=
  ∀ before m mid m' after, P before m (mid ++ m' :: after) → ¬ P (before ++ m :: mid) m' after

theorem Place.Sole.unique {P : Place} (hsole : P.Sole) {before before' after after' : List Mark}
    {m m' : Mark} (h : P before m after) (h' : P before' m' after')
    (heq : before ++ m :: after = before' ++ m' :: after') : m = m' := by
  rcases List.append_eq_append_iff.1 heq with ⟨mid, rfl, hmid⟩ | ⟨mid, rfl, hmid⟩
  · cases mid with
    | nil => exact (List.cons.inj hmid).1
    | cons x mid =>
      obtain ⟨rfl, rfl⟩ := List.cons.inj hmid
      exact absurd h' (hsole _ _ _ _ _ h)
  · cases mid with
    | nil => exact (List.cons.inj hmid).1.symm
    | cons x mid =>
      obtain ⟨rfl, rfl⟩ := List.cons.inj hmid
      exact absurd h (hsole _ _ _ _ _ h')

/-- The first character that may not stand where it does. -/
def Misplaced (limit : Nat) : Place := fun before m _ =>
  Sound limit before ∧ ¬ Permitted limit (depth before) m

/-- The start of the innermost list that is left open. -/
def Innermost : Place := fun _ m after => m.role.weight = 1 ∧ Balanced after

/-- The start of a string that is left open. -/
def Begun : Place := fun _ m after => m.role = .quote ∧ ∀ x ∈ after, x.role = .text ∨ x.role = .escape

theorem permitted_of_sound {limit : Nat} {before after : List Mark} {m : Mark}
    (h : Sound limit (before ++ m :: after)) : Permitted limit (depth before) m :=
  (sound_append.1 h).2.1

theorem misplaced_sole (limit : Nat) : (Misplaced limit).Sole :=
  fun _ _ _ _ _ h h' => h.2 (permitted_of_sound h'.1)

theorem innermost_sole : Innermost.Sole := by
  rintro before m mid m' after ⟨-, hdepth, hprefix⟩ ⟨hm', hafter, -⟩
  have hmid : 0 ≤ depth mid := hprefix mid (m' :: after) rfl
  rw [depth_append, depth_cons] at hdepth
  omega

theorem begun_sole : Begun.Sole := by
  rintro before m mid m' after ⟨-, hafter⟩ ⟨hm', -⟩
  have hrole := hafter m' (by simp)
  simp [hm'] at hrole

theorem Begun.not_outside {before after : List Mark} {m : Mark} (h : Begun before m after) :
    ¬ Outside (before ++ m :: after) := by
  intro houtside
  obtain ⟨hm, hafter⟩ := h
  rw [Outside, List.getLast?_append_of_ne_nil _ (by simp)] at houtside
  cases hlast : (m :: after).getLast? with
  | none => simp at hlast
  | some x =>
    have hx := houtside x hlast
    rcases List.mem_cons.1 (List.mem_of_getLast? hlast) with rfl | hmem
    · exact hx.1 hm
    · rcases hafter x hmem with htext | hescape
      · exact hx.2.1 htext
      · exact hx.2.2 hescape

def blame (limit : Nat) (m : Mark) : Report :=
  match m.role with
  | .closing => ⟨.invalidSyntax, "Unexpected ')' with no open list", m.position, some ")"⟩
  | .escape => ⟨.invalidEscape, "Invalid escape sequence '\\" ++ String.singleton m.char ++ "'",
      m.position, some (String.singleton m.char)⟩
  | _ => ⟨.tooDeeplyNested, "Expression too deeply nested (max depth: " ++ Text.ofNat limit ++ ")",
      m.position, none⟩

/-- The three ways in which a text is wrong: at a character, for a list that is left open, or for a string
that is left open. -/
inductive Finding (limit : Nat) (ms : List Mark) (r : Report) : Prop
  | misplaced (before : List Mark) (m : Mark) (after : List Mark) : ms = before ++ m :: after →
    Misplaced limit before m after → r = blame limit m → Finding limit ms r
  | unclosed (before : List Mark) (m : Mark) (after : List Mark) : ms = before ++ m :: after →
    Innermost before m after → Sound limit ms → Outside ms →
    r = ⟨.incomplete, "Unclosed list opened at " ++ m.position.text, m.position, none⟩ →
    Finding limit ms r
  | unterminated (before : List Mark) (m : Mark) (after : List Mark) : ms = before ++ m :: after →
    Begun before m after → Sound limit ms →
    r = ⟨.incomplete, "Unterminated string literal", m.position, none⟩ → Finding limit ms r

section

variable {limit : Nat} {ms : List Mark} {r r' : Report}

theorem Diagnosis.finding (h : Diagnosis limit ms r) : Finding limit ms r := by
  cases h with
  | strayClose before m after heq hsound hrole hdepth =>
    exact .misplaced before m after heq ⟨hsound, by simp [Permitted, hrole, hdepth]⟩ (by rw [blame, hrole])
  | unclosed before m after heq hsound hrole hbalanced houtside =>
    exact .unclosed before m after heq ⟨by simp [hrole, Role.weight], hbalanced⟩ hsound houtside rfl
  | unterminated before m after heq hsound hrole hafter =>
    exact .unterminated before m after heq ⟨hrole, hafter⟩ hsound rfl
  | badEscape before m after heq hsound hrole hletter =>
    exact .misplaced before m after heq ⟨hsound, by simpa [Permitted, hrole] using hletter⟩
      (by rw [blame, hrole])
  | tooNested before m after heq hsound hrole hdepth =>
    exact .misplaced before m after heq ⟨hsound, by simp [Permitted, hrole, hdepth]⟩ (by rw [blame, hrole])

theorem Finding.unique (h : Finding limit ms r) (h' : Finding limit ms r') : r = r' := by
  cases h with
  | misplaced before m after heq hm hr =>
    have hfaulty : ¬ Sound limit ms := fun hsound => hm.2 (permitted_of_sound (heq ▸ hsound))
    cases h' with
    | misplaced before' m' after' heq' hm' hr' =>
      rw [hr, hr', (misplaced_sole limit).unique hm hm' (heq.symm.trans heq')]
    | unclosed _ _ _ _ _ hsound => exact absurd hsound hfaulty
    | unterminated _ _ _ _ _ hsound => exact absurd hsound hfaulty
  | unclosed before m after heq hm hsound houtside hr =>
    cases h' with
    | misplaced before' m' after' heq' hm' hr' =>
      exact absurd (permitted_of_sound (heq' ▸ hsound)) hm'.2
    | unclosed before' m' after' heq' hm' _ _ hr' =>
      rw [hr, hr', innermost_sole.unique hm hm' (heq.symm.trans heq')]
    | unterminated before' m' after' heq' hm' => exact absurd (heq' ▸ houtside) hm'.not_outside
  | unterminated before m after heq hm hsound hr =>
    cases h' with
    | misplaced before' m' after' heq' hm' hr' =>
      exact absurd (permitted_of_sound (heq' ▸ hsound)) hm'.2
    | unclosed before' m' after' heq' hm' _ houtside => exact absurd (heq ▸ houtside) hm.not_outside
    | unterminated before' m' after' heq' hm' _ hr' =>
      rw [hr, hr', begun_sole.unique hm hm' (heq.symm.trans heq')]

theorem Diagnosis.unique (h : Diagnosis limit ms r) (h' : Diagnosis limit ms r') : r = r' :=
  h.finding.unique h'.finding

theorem Tracks.no_diagnosis {vs : List Value} (h : Tracks limit ms ⟨vs, []⟩) : ¬ Diagnosis limit ms r := by
  intro hwrong
  cases hwrong.finding with
  | misplaced before m after heq hm hr => exact hm.2 (permitted_of_sound (heq ▸ h.sound))
  | unclosed before m after heq hm =>
    obtain ⟨hdepth, hprefix⟩ := h.lists.balanced
    have hbefore : 0 ≤ depth before := hprefix before (m :: after) heq
    rw [heq, depth_append, depth_cons, hm.1, hm.2.1] at hdepth
    omega
  | unterminated before m after heq hm => exact hm.not_outside (heq ▸ h.outside)

end

/-! The reader's errors. -/

section

variable {config : ReaderConfig} {source : String}

theorem diagnosed_of_error {e : ReadError} (h : readForms config source = .error e) :
    Diagnosed config.nesting (ofText config.comments source) e := by
  have hjudged := judged_ofText config source
  rw [readForms, formsOfTokens] at h
  cases hfeed : Reading.feedAll config.nesting {}
      (Token.all config.comments (Glyph.ofText source)) with
  | error e' =>
    rw [hfeed] at h hjudged
    cases h
    exact hjudged
  | ok r =>
    obtain ⟨forms, frames⟩ := r
    rw [hfeed] at h hjudged
    cases frames with
    | nil => cases h
    | cons f fs =>
      cases h
      obtain ⟨before, m, after, heq, hrole, hposition, hafter⟩ := hjudged.lists.innermost
      have hreport : report ⟨.unclosed f.opened, f.opened⟩ =
          ⟨.incomplete, "Unclosed list opened at " ++ m.position.text, m.position, none⟩ := by
        rw [hposition]
        rfl
      rw [Diagnosed, hreport]
      exact .unclosed before m after heq hjudged.sound hrole hafter hjudged.outside

theorem diagnosis_iff {r : Report} :
    Diagnosis config.nesting (ofText config.comments source) r ↔
      ∃ e, readForms config source = .error e ∧ report e = r := by
  constructor
  · intro hwrong
    cases hread : readForms config source with
    | ok vs =>
      have hjudged := judged_ofText config source
      rw [formsOfTokens_eq_ok_iff.1 hread] at hjudged
      exact absurd hwrong hjudged.no_diagnosis
    | error e => exact ⟨e, rfl, (diagnosed_of_error hread).unique hwrong⟩
  · rintro ⟨e, hread, rfl⟩
    exact diagnosed_of_error hread

end

theorem Diagnosis.specific {limit : Nat} {ms : List Mark} {r : Report} (h : Diagnosis limit ms r) :
    r.message ≠ "Incomplete input" ∧ ¬ "Invalid syntax near".toList <+: r.message.toList := by
  rw [ne_eq, ← String.toList_inj]
  cases h <;> simp

/-! Characters by their roles. -/

/-- What a character that makes the step is, as far as its role tells, and before which mode. -/
def Spelt (mode : Mode) (g : Glyph) (out : Role × Mode) : Prop :=
  (out.1 = .closing → g.char = ')') ∧ (out.1 = .quote → g.char = '"') ∧
  (out.1 = .escape → mode = .escape) ∧ (out.2 = .escape → out.1 = .text ∧ g.char = '\\')

theorem spelt_start (skips : List Glyph → Bool) (mode : Mode) (g : Glyph) (gs : List Glyph) :
    Spelt mode g (start skips g gs) := by
  unfold start
  split
  · simp [Spelt]
  split
  · rename_i hclose
    simpa [Spelt] using hclose
  split
  · simp [Spelt]
  split
  · simp [Spelt]
  split
  · rename_i hquote
    simpa [Spelt] using hquote
  split
  · simp [Spelt]
  split <;> simp [Spelt]

theorem spelt_step (skips : List Glyph → Bool) (mode : Mode) (g : Glyph) (gs : List Glyph) :
    Spelt mode g (step skips mode g gs) := by
  unfold step
  split
  · exact spelt_start skips _ g gs
  · simp [Spelt]
  · split
    · simp [Spelt]
    · exact spelt_start skips _ g gs
  · split
    · simp [Spelt]
    · exact spelt_start skips _ g gs
  · split
    · simp [Spelt]
    · split
      · rename_i hbackslash
        simpa [Spelt] using hbackslash
      · simp [Spelt]
  · simp [Spelt]
  · split <;> simp [Spelt]

theorem char_of_role {comments : Bool} {source : String} {before after : List Mark} {m : Mark}
    (h : ofText comments source = before ++ m :: after) :
    (m.role = .closing → m.char = ')') ∧ (m.role = .quote → m.char = '"') ∧
    (m.role = .escape → ∃ b ∈ before.getLast?, b.role = .text ∧ b.char = '\\') := by
  obtain ⟨mode, hrole, hlast⟩ := role_of_marks h
  obtain ⟨hclosing, hquote, hescape, -⟩ :=
    spelt_step (skipped comments) mode m.toGlyph (after.map Mark.toGlyph)
  rw [hrole]
  refine ⟨hclosing, hquote, fun hm => ?_⟩
  obtain rfl := hescape hm
  obtain ⟨b, hb, mode, more, hstep⟩ := hlast.resolve_left nofun
  have hspelt := spelt_step (skipped comments) mode b.toGlyph more
  rw [hstep] at hspelt
  exact ⟨b, hb, hspelt.2.2.2 rfl⟩

end Layout

open Layout

/-- Errors are diagnosed exactly. The reader gives an error that tells `r` if and only if `r` is what is
wrong with the text, of which there is one thing at most. It is never one of the general errors: wherever
an atom has to start, trying each kind in turn finds one. -/
theorem readForms_diagnosed (config : ReaderConfig) (source : String) :
    (∀ r, (∃ e, readForms config source = .error e ∧ report e = r) ↔
      Diagnosis config.nesting (ofText config.comments source) r) ∧
    (∀ r, Diagnosis config.nesting (ofText config.comments source) r →
      r.message ≠ "Incomplete input" ∧ ¬ "Invalid syntax near".toList <+: r.message.toList) ∧
    (∀ (g : Glyph) (gs : List Glyph), isBlank g.char = false → ¬ Bracketed (g :: gs) →
      (Attempt.atom (g :: gs)).token g.position = some (Token.ofGlyphs g gs)) ∧
    ∀ (before : List Mark) (m : Mark) (after : List Mark),
      ofText config.comments source = before ++ m :: after →
      m.position = Position.start.after (before.map (·.char)) ∧
      (m.role = .opening false → m.char = '(') ∧
      (m.role = .opening true → m.char = '\x27' ∧ ∃ o ∈ after.head?, o.char = '(') ∧
      (m.role = .closing → m.char = ')') ∧ (m.role = .quote → m.char = '"') ∧
      (m.role = .escape → ∃ b ∈ before.getLast?, b.role = .text ∧ b.char = '\\') := by
  refine ⟨fun r => diagnosis_iff.symm, fun r h => h.specific, fun g gs => Attempt.token_atom, ?_⟩
  intro before m after heq
  obtain ⟨hplain, hquoted⟩ := char_of_opening heq
  exact ⟨position_ofText heq, hplain, hquoted, char_of_role heq⟩

/-- An escape sequence that is none is reported before the string and the list that are left open. A list
is left open where a comment has the parenthesis that would close it. And a colon alone is a symbol. -/
theorem readForms_diagnosed_open :
    (readForms ⟨false, 1⟩ "(\"a\\q" = .error ⟨.badEscape 'q', ⟨1, 5⟩⟩ ∧
      Diagnosis 1 (ofText false "(\"a\\q")
        ⟨.invalidEscape, "Invalid escape sequence '\\q'", ⟨1, 5⟩, some "q"⟩) ∧
    (readForms ⟨true, 2⟩ "'((a) ;)\n" = .error ⟨.unclosed ⟨1, 1⟩, ⟨1, 1⟩⟩ ∧
      Diagnosis 2 (ofText true "'((a) ;)\n")
        ⟨.incomplete, "Unclosed list opened at line 1, col 1", ⟨1, 1⟩, none⟩) ∧
    (Attempt.atom [⟨':', .start⟩]).token .start = some (Token.ofGlyphs ⟨':', .start⟩ []) := by
  have hescape : readForms ⟨false, 1⟩ "(\"a\\q" = .error ⟨.badEscape 'q', ⟨1, 5⟩⟩ := by decide +kernel
  have hopen : readForms ⟨true, 2⟩ "'((a) ;)\n" = .error ⟨.unclosed ⟨1, 1⟩, ⟨1, 1⟩⟩ := by decide +kernel
  refine ⟨⟨hescape, ?_⟩, ⟨hopen, ?_⟩, ?_⟩
  · exact ((readForms_diagnosed ⟨false, 1⟩ _).1 _).1 ⟨_, hescape, rfl⟩
  · exact ((readForms_diagnosed ⟨true, 2⟩ _).1 _).1 ⟨_, hopen, rfl⟩
  · exact (readForms_diagnosed {} "").2.2.1 ⟨':', .start⟩ [] (by decide) (by simp [Bracketed])

end MiniLisp
