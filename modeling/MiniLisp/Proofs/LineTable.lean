import MiniLisp.Proofs.Positions
import MiniLisp.Reader.LineTable

/-! The table of lines gives every character its position. The text before an offset is cut at its last
newline (`exists_line`): there the line starts that the table finds, and what follows are the
characters that the column counts. So a text has the glyphs that the table gives it
(`glyphs_eq_ofText`), and all that is said of the positions of its lists and of its errors is said of
positions found that way. -/

namespace MiniLisp

/-- The bytes of a text. -/
def byteCount (cs : List Char) : Nat := (String.ofList cs).utf8ByteSize

@[simp] theorem byteCount_nil : byteCount [] = 0 := rfl

@[simp] theorem byteCount_cons (c : Char) (cs : List Char) :
    byteCount (c :: cs) = c.utf8Size + byteCount cs := by
  rw [byteCount, String.ofList_cons, String.utf8ByteSize_append, String.utf8ByteSize_singleton]
  rfl

@[simp] theorem byteCount_append (us vs : List Char) :
    byteCount (us ++ vs) = byteCount us + byteCount vs := by
  rw [byteCount, String.ofList_append, String.utf8ByteSize_append]
  rfl

theorem splitBytes_append (us vs : List Char) : splitBytes (byteCount us) (us ++ vs) = some (us, vs) := by
  induction us with
  | nil => rw [byteCount_nil, List.nil_append, splitBytes]
  | cons c us ih =>
    have hpos := c.utf8Size_pos
    obtain ⟨n, hn⟩ : ∃ n, byteCount (c :: us) = n + 1 := ⟨byteCount (c :: us) - 1, by simp; omega⟩
    have hrest : n + 1 - c.utf8Size = byteCount us := by rw [← hn, byteCount_cons]; omega
    rw [hn, List.cons_append, splitBytes, hrest, ih, if_pos (by rw [← hn, byteCount_cons]; omega)]
    rfl

namespace LineTable

theorem behindNewlines_append (offset : Nat) (us vs : List Char) :
    behindNewlines offset (us ++ vs) =
      behindNewlines offset us ++ behindNewlines (offset + byteCount us) vs := by
  induction us generalizing offset with
  | nil => rfl
  | cons c us ih =>
    rw [List.cons_append, behindNewlines, behindNewlines]
    rw [ih, byteCount_cons, Nat.add_assoc]
    split_ifs <;> rfl

theorem le_of_mem_behindNewlines {offset start : Nat} {cs : List Char}
    (h : start ∈ behindNewlines offset cs) : offset < start ∧ start ≤ offset + byteCount cs := by
  induction cs generalizing offset with
  | nil => cases h
  | cons c cs ih =>
    have hpos := c.utf8Size_pos
    have htail : start ∈ behindNewlines (offset + c.utf8Size) cs →
        offset < start ∧ start ≤ offset + byteCount (c :: cs) := by
      intro hmem
      have := ih hmem
      rw [byteCount_cons]
      omega
    rw [behindNewlines] at h
    split_ifs at h
    · rcases List.mem_cons.1 h with rfl | hmem
      · rw [byteCount_cons]
        omega
      · exact htail hmem
    · exact htail h

/-- The starts ascend, so that a search by halves finds what going through them finds. -/
theorem pairwise_starts (source : String) : (ofText source).starts.Pairwise (· < ·) := by
  have hascend : ∀ offset cs, (behindNewlines offset cs).Pairwise (· < ·) := by
    intro offset cs
    induction cs generalizing offset with
    | nil => exact .nil
    | cons c cs ih =>
      rw [behindNewlines]
      split_ifs
      · exact .cons (fun start h => (le_of_mem_behindNewlines h).1) (ih _)
      · exact ih _
  exact .cons (fun start h => (le_of_mem_behindNewlines h).1) (hascend 0 _)

theorem takeWhile_starts (before rest : List Char) :
    (0 :: behindNewlines 0 (before ++ rest)).takeWhile (· ≤ byteCount before) =
      0 :: behindNewlines 0 before := by
  have hfront : ∀ start ∈ 0 :: behindNewlines 0 before, decide (start ≤ byteCount before) = true := by
    rw [List.forall_mem_cons]
    refine ⟨by simp, fun start hstart => ?_⟩
    have := (le_of_mem_behindNewlines hstart).2
    rw [decide_eq_true_iff]
    omega
  have hback : (behindNewlines (byteCount before) rest).takeWhile (· ≤ byteCount before) = [] := by
    cases h : behindNewlines (byteCount before) rest with
    | nil => rfl
    | cons start starts =>
      have := (le_of_mem_behindNewlines (h ▸ List.mem_cons_self)).1
      rw [List.takeWhile_cons_of_neg (by simpa using this)]
  rw [behindNewlines_append, Nat.zero_add, ← List.cons_append, List.takeWhile_append_of_pos hfront, hback,
    List.append_nil]

/-- The last line that starts in a text starts behind its last newline. -/
theorem exists_line (before : List Char) :
    ∃ us vs, before = us ++ vs ∧
      (0 :: behindNewlines 0 before)[(behindNewlines 0 before).length]? = some (byteCount us) ∧
      Position.start.after before = ⟨(behindNewlines 0 before).length + 1, vs.length + 1⟩ := by
  induction before using List.reverseRecOn with
  | nil => exact ⟨[], [], rfl, rfl, rfl⟩
  | append_singleton before c ih =>
    obtain ⟨us, vs, rfl, hstart, hafter⟩ := ih
    have hstarts := behindNewlines_append 0 (us ++ vs) [c]
    rw [Nat.zero_add] at hstarts
    by_cases hc : c = '\n'
    · subst hc
      have hnewline : behindNewlines 0 (us ++ vs ++ ['\n']) =
          behindNewlines 0 (us ++ vs) ++ [byteCount (us ++ vs ++ ['\n'])] := by
        rw [hstarts, behindNewlines, byteCount_append (us ++ vs)]
        rfl
      refine ⟨us ++ vs ++ ['\n'], [], by simp, ?_, ?_⟩
      · rw [hnewline, ← List.cons_append, List.length_append, List.length_singleton]
        exact List.getElem?_concat_length
      · rw [Position.after_concat, hafter, hnewline]
        simp [Position.next]
    · have hsame : behindNewlines 0 (us ++ vs ++ [c]) = behindNewlines 0 (us ++ vs) := by
        rw [hstarts, behindNewlines, if_neg (by simpa using hc), behindNewlines, List.append_nil]
      refine ⟨us, vs ++ [c], by simp, ?_, ?_⟩
      · rw [hsame]
        exact hstart
      · rw [Position.after_concat, hafter, hsame]
        simp [Position.next, hc]

theorem spanOf_append (before rest : List Char) :
    (ofText (String.ofList (before ++ rest))).spanOf (String.ofList rest) =
      some (Position.start.after before) := by
  obtain ⟨us, vs, hcut, hstart, hafter⟩ := exists_line before
  have hoffset : (String.ofList (before ++ rest)).utf8ByteSize - (String.ofList rest).utf8ByteSize =
      byteCount before := by
    change byteCount (before ++ rest) - byteCount rest = _
    rw [byteCount_append]
    omega
  have hbefore : byteCount before = byteCount us + byteCount vs := by rw [hcut, byteCount_append]
  have hsource : before ++ rest = us ++ (vs ++ rest) := by rw [hcut, List.append_assoc]
  unfold spanOf ofText
  dsimp only
  rw [hoffset, String.toList_ofList, takeWhile_starts, List.length_cons, Nat.add_sub_cancel]
  have hstart' : (0 :: behindNewlines 0 (before ++ rest))[(behindNewlines 0 before).length]? =
      some (byteCount us) := by
    rw [behindNewlines_append, ← List.cons_append, List.getElem?_append_left (by simp), hstart]
  have hline : splitBytes (byteCount before - byteCount us) (vs ++ rest) = some (vs, rest) := by
    rw [hbefore, Nat.add_sub_cancel_left, splitBytes_append]
  rw [hstart', hafter, hsource]
  simp only [Option.bind_eq_bind, Option.bind_some, splitBytes_append, hline]
  rfl

theorem glyphs_append (before rest : List Char) :
    (ofText (String.ofList (before ++ rest))).glyphs rest =
      some (Glyph.place (Position.start.after before) rest) := by
  induction rest generalizing before with
  | nil => rfl
  | cons c cs ih =>
    have hrest := ih (before ++ [c])
    rw [List.append_assoc, List.singleton_append, Position.after_concat] at hrest
    rw [glyphs, spanOf_append, hrest]
    rfl

/-- The table gives every character of the source its position, and never fails to. -/
theorem glyphs_eq_ofText (source : String) :
    (ofText source).glyphs source.toList = some (Glyph.ofText source) := by
  have h := glyphs_append [] source.toList
  rwa [List.nil_append, String.ofList_toList] at h

/-- To read the glyphs of the table is to read the text. -/
theorem formsOfTokens_glyphs (config : ReaderConfig) (source : String) :
    ((ofText source).glyphs source.toList).map
      (fun gs => formsOfTokens config.nesting (Token.all config.comments gs)) =
        some (readForms config source) := by
  rw [glyphs_eq_ofText]
  rfl

end LineTable
end MiniLisp
