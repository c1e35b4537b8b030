import MiniLisp.Proofs.Extension

/-! Errors of a text that goes on. An error stands however the text goes on (`feedAll_append_of_error`),
unless the reader has only run out of text. Then some text brings it over the place where it ended
(`feedAll_completable`), and closing parentheses do the rest. -/

namespace MiniLisp

open Grammar
open Reading (feedAll)

theorem feedAll_append (nesting : Nat) (r : Reading) (ts us : List Token) :
    feedAll nesting r (ts ++ us) = (feedAll nesting r ts).bind fun r => feedAll nesting r us := by
  induction ts generalizing r with
  | nil => rfl
  | cons t ts ih =>
    rw [List.cons_append, feedAll, feedAll]
    cases r.feed nesting t with
    | ok r => exact ih r
    | error e => rfl

theorem feed_error {nesting : Nat} {r : Reading} {t : Token} {e : ReadError}
    (h : r.feed nesting t = .error e) :
    t.lexeme = .fault e.fault ∨
      (t.lexeme = .closing ∨ ∃ quoted, t.lexeme = .opening quoted) ∧ e.fault.kind ≠ .incomplete := by
  unfold Reading.feed at h
  split at h
  · simp at h
  · rename_i f hf
    cases h
    exact Or.inl hf
  · rename_i quoted hopening
    split_ifs at h
    cases h
    exact Or.inr ⟨Or.inr ⟨quoted, hopening⟩, by simp [ReadFault.kind]⟩
  · rename_i hclosing
    split at h
    · cases h
      exact Or.inr ⟨Or.inl hclosing, by simp [ReadFault.kind]⟩
    · simp at h

theorem feedAll_error {nesting : Nat} {r : Reading} {ts : List Token} {e : ReadError}
    (h : feedAll nesting r ts = .error e) : ∃ t ∈ ts, ∃ r : Reading, r.feed nesting t = .error e := by
  induction ts generalizing r with
  | nil => simp [feedAll] at h
  | cons t ts ih =>
    rw [feedAll] at h
    cases hfeed : r.feed nesting t with
    | error e' =>
      obtain rfl : e' = e := by simpa [hfeed] using h
      exact ⟨t, List.mem_cons_self, r, hfeed⟩
    | ok r' =>
      rw [hfeed] at h
      obtain ⟨t, ht, hr⟩ := ih h
      exact ⟨t, List.mem_cons_of_mem _ ht, hr⟩

section

variable {nesting : Nat} {r : Reading} {ts : List Token} {e : ReadError}
  (h : feedAll nesting r ts = .error e)
include h

theorem not_incomplete_of_sound (hts : ∀ t ∈ ts, ∀ f, t.lexeme ≠ .fault f) :
    e.fault.kind ≠ .incomplete := by
  obtain ⟨t, ht, r, hfeed⟩ := feedAll_error h
  rcases feed_error hfeed with hfault | ⟨-, hkind⟩
  · exact absurd hfault (hts t ht _)
  · exact hkind

theorem incomplete_of_ending
    (hts : ∀ t ∈ ts, (∃ v, t.lexeme = .atom v) ∨ t.lexeme = .fault .unterminatedString) :
    e.fault.kind = .incomplete := by
  obtain ⟨t, ht, r, hfeed⟩ := feedAll_error h
  have herr := feed_error hfeed
  rcases hts t ht with ⟨v, hatom⟩ | hcut
  · simp [hatom] at herr
  · have hf : .unterminatedString = e.fault := by simpa [hcut] using herr
    rw [← hf]
    rfl

end

theorem feedAll_atoms {ts : List Token} (h : ∀ t ∈ ts, ∃ v, t.lexeme = .atom v) (nesting : Nat)
    (r : Reading) : ∃ r', feedAll nesting r ts = .ok r' := by
  induction ts generalizing r with
  | nil => exact ⟨r, rfl⟩
  | cons t ts ih =>
    obtain ⟨v, hv⟩ := h t List.mem_cons_self
    obtain ⟨r', hr'⟩ := ih (fun t ht => h t (List.mem_cons_of_mem _ ht)) ⟨v :: r.forms, r.frames⟩
    exact ⟨r', by rw [feedAll]; simp [Reading.feed, hv, hr']⟩

/-- An error other than for want of text stands, however the text goes on. -/
theorem feedAll_append_of_error {comments : Bool} {nesting : Nat} {gs more : List Glyph} {r : Reading}
    {e : ReadError} (hcut : CleanCut comments gs more)
    (h : feedAll nesting r (Token.all comments gs) = .error e) (he : e.fault.kind ≠ .incomplete) :
    feedAll nesting r (Token.all comments (gs ++ more)) = .error e := by
  -- on the length of the text, since a settled step leaves a shorter one
  induction hn : gs.length using Nat.strong_induction_on generalizing gs r with
  | _ n ih =>
    subst hn
    cases gs with
    | nil => simp [Token.all, feedAll] at h
    | cons g gs =>
      cases advance comments g gs with
      | settled ts rest hsuffix hlt hts hall =>
        have hself : Token.all comments (g :: gs) = ts ++ Token.all comments rest := by
          simpa using hall [] cleanCut_nil
        rw [hself, feedAll_append] at h
        rw [hall more hcut, feedAll_append]
        cases hfeed : feedAll nesting r ts with
        | error e' =>
          rw [hfeed] at h
          exact h
        | ok r' =>
          rw [hfeed] at h
          exact ih rest.length hlt (hcut.of_suffix hsuffix) h rfl
      | refused c p hall =>
        have hself : Token.all comments (g :: gs) = [⟨.fault (.badEscape c), p⟩] := by
          simpa using hall [] cleanCut_nil
        rw [hall more hcut, ← hself, h]
      | ending ts _ _ hself hts _ _ _ =>
        rw [hself] at h
        exact absurd (incomplete_of_ending h hts) he

/-- A reading that nothing but the end of the text keeps from going on can go on: some text brings it
over the place where it ended. -/
theorem feedAll_completable {comments : Bool} {nesting : Nat} {gs : List Glyph} {r : Reading}
    (h : ∀ e, feedAll nesting r (Token.all comments gs) = .error e → e.fault.kind = .incomplete) :
    ∃ fix r', Parts fix ∧ ∀ more tail, Token.chars more = fix →
      feedAll nesting r (Token.all comments (gs ++ (more ++ tail))) =
        feedAll nesting r' (Token.all comments tail) := by
  induction hn : gs.length using Nat.strong_induction_on generalizing gs r with
  | _ n ih =>
    subst hn
    cases gs with
    | nil =>
      refine ⟨pause, r, parts_pause, fun more tail hmore => ?_⟩
      rw [List.nil_append, all_pause hmore]
    | cons g gs =>
      cases advance comments g gs with
      | settled ts rest hsuffix hlt hts hall =>
        have hself : Token.all comments (g :: gs) = ts ++ Token.all comments rest := by
          simpa using hall [] cleanCut_nil
        rw [hself, feedAll_append] at h
        cases hfeed : feedAll nesting r ts with
        | error e =>
          have hkind : e.fault.kind = .incomplete := h e (by rw [hfeed]; rfl)
          exact absurd hkind (not_incomplete_of_sound hfeed hts)
        | ok r' =>
          rw [hfeed] at h
          -- what mends the rest does not change this step, as it starts with no newline
          obtain ⟨fix, r'', hparts, hfix⟩ := ih rest.length hlt h rfl
          refine ⟨fix, r'', hparts, fun more tail hmore => ?_⟩
          rw [hall _ (hparts.cleanCut hmore tail), feedAll_append, hfeed]
          exact hfix more tail hmore
      | refused c p hall =>
        have hself : Token.all comments (g :: gs) = [⟨.fault (.badEscape c), p⟩] := by
          simpa using hall [] cleanCut_nil
        rw [hself] at h
        simp [feedAll, Reading.feed, ReadFault.kind] at h
      | ending ts ts' fix hself hts hatoms hparts hall =>
        obtain ⟨r', hr'⟩ := feedAll_atoms hatoms nesting r
        refine ⟨fix, r', hparts, fun more tail hmore => ?_⟩
        rw [hall more tail hmore, feedAll_append, hr']
        rfl

theorem feedAll_closings (comments : Bool) (nesting : Nat) {gs : List Glyph} {r : Reading}
    (h : Token.chars gs = List.replicate r.frames.length ')') :
    ∃ vs, feedAll nesting r (Token.all comments gs) = .ok ⟨vs, []⟩ := by
  obtain ⟨forms, frames⟩ := r
  induction frames generalizing gs forms with
  | nil =>
    obtain rfl : gs = [] := List.map_eq_nil_iff.1 h
    exact ⟨forms, by rw [Token.all, feedAll]⟩
  | cons f frames ih =>
    obtain ⟨c, more, rfl, hc, hmore⟩ := List.map_eq_cons_iff.1 h
    rw [all_closing hc, feedAll]
    exact ih _ hmore

section

variable {config : ReaderConfig} {source : String} {e : ReadError}
  (h : readForms config source = .error e)
include h

theorem feedAll_of_readForms_error :
    feedAll config.nesting {} (Token.all config.comments (Glyph.ofText source)) = .error e ∨
      e.fault.kind = .incomplete ∧
        ∃ r, feedAll config.nesting {} (Token.all config.comments (Glyph.ofText source)) = .ok r := by
  rw [readForms, formsOfTokens] at h
  cases hfeed : feedAll config.nesting {} (Token.all config.comments (Glyph.ofText source)) with
  | error e' =>
    obtain rfl : e' = e := by simpa [hfeed] using h
    exact Or.inl rfl
  | ok r =>
    simp only [hfeed, Reading.finish] at h
    split at h
    · simp at h
    · cases h
      exact Or.inr ⟨rfl, r, rfl⟩

theorem readForms_completable (hkind : e.fault.kind = .incomplete) :
    ∃ more vs, readForms config (source ++ more) = .ok vs := by
  have hends : ∀ e', feedAll config.nesting {} (Token.all config.comments (Glyph.ofText source)) =
      .error e' → e'.fault.kind = .incomplete := by
    intro e' he'
    rcases feedAll_of_readForms_error h with he | ⟨-, r, hr⟩
    · rw [he] at he'
      cases he'
      exact hkind
    · simp [hr] at he'
  obtain ⟨fix, r, -, hfix⟩ := feedAll_completable hends
  obtain ⟨p, hp⟩ := place_append .start source.toList (fix ++ List.replicate r.frames.length ')')
  obtain ⟨q, hq⟩ := place_append p fix (List.replicate r.frames.length ')')
  obtain ⟨vs, hvs⟩ := feedAll_closings config.comments config.nesting (chars_place q _)
  refine ⟨String.ofList (fix ++ List.replicate r.frames.length ')'), vs.reverse, ?_⟩
  rw [readForms, formsOfTokens, Glyph.ofText, String.toList_append, String.toList_ofList, hp, hq,
    ← Glyph.ofText, hfix _ _ (chars_place p fix), hvs]
  rfl

theorem readForms_append_of_error (hkind : e.fault.kind ≠ .incomplete)
    (hcut : config.comments = false ∨ source.toList.getLast? ≠ some '\r') (more : String) :
    readForms config (source ++ more) = .error e := by
  have herror : feedAll config.nesting {} (Token.all config.comments (Glyph.ofText source)) =
      .error e := (feedAll_of_readForms_error h).resolve_right fun hok => hkind hok.1
  obtain ⟨p, hp⟩ := place_append .start source.toList more.toList
  have hclean : CleanCut config.comments (Glyph.ofText source) (Glyph.place p more.toList) := by
    intro hc hlast
    rw [Glyph.ofText, chars_place] at hlast
    simp [hc, hlast] at hcut
  rw [readForms, formsOfTokens, Glyph.ofText, String.toList_append, hp, ← Glyph.ofText,
    feedAll_append_of_error hclean herror hkind]

end

/-- An error says whether more text can help. A text that is incomplete has a continuation that is read;
any other error stays the same whatever follows, unless comments are read and the text ends in a carriage
return, whose newline may be to come. -/
theorem readForms_error_extends (config : ReaderConfig) (source : String) (e : ReadError)
    (h : readForms config source = .error e) :
    (e.fault.kind = .incomplete → ∃ more vs, readForms config (source ++ more) = .ok vs) ∧
    (e.fault.kind ≠ .incomplete → config.comments = false ∨ source.toList.getLast? ≠ some '\r' →
      ∀ more, readForms config (source ++ more) = .error e) :=
  ⟨readForms_completable h, readForms_append_of_error h⟩

/-- A list is cut within an escape sequence; and a parenthesis closes nothing. -/
theorem readForms_error_extends_cut :
    (readForms ⟨true, 2⟩ "(a \"b\\" = .error ⟨.unterminatedString, ⟨1, 4⟩⟩ ∧
      ∃ more vs, readForms ⟨true, 2⟩ ("(a \"b\\" ++ more) = .ok vs) ∧
    (readForms ⟨true, 2⟩ "(a)) ; b" = .error ⟨.strayClose, ⟨1, 4⟩⟩ ∧
      ∀ more, readForms ⟨true, 2⟩ ("(a)) ; b" ++ more) = .error ⟨.strayClose, ⟨1, 4⟩⟩) := by
  have hcut : readForms ⟨true, 2⟩ "(a \"b\\" = .error ⟨.unterminatedString, ⟨1, 4⟩⟩ := by decide +kernel
  have hstray : readForms ⟨true, 2⟩ "(a)) ; b" = .error ⟨.strayClose, ⟨1, 4⟩⟩ := by decide +kernel
  exact ⟨⟨hcut, (readForms_error_extends _ _ _ hcut).1 rfl⟩,
    ⟨hstray, (readForms_error_extends _ _ _ hstray).2 (by decide) (Or.inr (by decide))⟩⟩

end MiniLisp
