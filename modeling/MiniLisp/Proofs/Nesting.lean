import MiniLisp.Proofs.Nodes

/-! The limit on nesting only guards. A reading under a limit goes as it does under any higher one, up to
the first list that is too deep for it (`feedAll_raise`); and that list is the first one of its level
in what is read under a limit high enough (`guarded`). -/

namespace MiniLisp

open Value
open Reading (feedAll)

theorem feed_raise {m m' : Nat} (hm : m ≤ m') (r : Reading) (t : Token) :
    r.feed m' t = r.feed m t ∨ r.feed m t = .error ⟨.tooNested m, t.position⟩ := by
  obtain ⟨lexeme, p⟩ := t
  cases lexeme with
  | atom v => exact Or.inl rfl
  | fault f => exact Or.inl rfl
  | closing => exact Or.inl rfl
  | opening quoted =>
    by_cases hfull : m ≤ r.frames.length
    · exact Or.inr (if_pos hfull)
    · have hroom : ¬ m' ≤ r.frames.length := by omega
      exact Or.inl ((if_neg hroom).trans (if_neg hfull).symm)

theorem feedAll_raise {m m' : Nat} (hm : m ≤ m') (r : Reading) (ts : List Token) :
    feedAll m' r ts = feedAll m r ts ∨ ∃ p, feedAll m r ts = .error ⟨.tooNested m, p⟩ := by
  induction ts generalizing r with
  | nil => exact Or.inl rfl
  | cons t ts ih =>
    rw [feedAll, feedAll]
    rcases feed_raise hm r t with hsame | herror
    · rw [hsame]
      cases r.feed m t with
      | ok r' => exact ih r'
      | error e => exact Or.inl rfl
    · rw [herror]
      exact Or.inr ⟨t.position, rfl⟩

theorem formsOfTokens_raise {m m' : Nat} (hm : m ≤ m') (ts : List Token) :
    formsOfTokens m' ts = formsOfTokens m ts ∨
      ∃ p, formsOfTokens m ts = .error ⟨.tooNested m, p⟩ := by
  rw [formsOfTokens, formsOfTokens]
  rcases feedAll_raise hm {} ts with hsame | ⟨p, herror⟩
  · exact Or.inl (by rw [hsame])
  · exact Or.inr ⟨p, by rw [herror]⟩

/-- How a reading goes under the limit `m` that ends as `r'` under another: the same way, if no list is
deeper than `m`; and otherwise up to the first that is, which is one level too deep. -/
def Guarded (m : Nat) (r : Reading) (ts : List Token) (r' : Reading) : Prop :=
  ((∀ n ∈ r'.nodes, n.level ≤ m) ∧ feedAll m r ts = .ok r') ∨
    ∃ before n after p, r'.nodes = before ++ n :: after ∧ (∀ x ∈ before, x.level ≤ m) ∧
      n.level = m + 1 ∧ n.opened = some p ∧ feedAll m r ts = .error ⟨.tooNested m, p⟩

theorem nodes_prefix_feedAll {nesting : Nat} {r r' : Reading} {ts : List Token}
    (hts : ∀ t ∈ ts, t.Flat) (h : feedAll nesting r ts = .ok r') : r.nodes <+: r'.nodes := by
  induction ts generalizing r with
  | nil =>
    cases h
    exact List.prefix_rfl
  | cons t ts ih =>
    obtain ⟨ht, hts⟩ := List.forall_mem_cons.1 hts
    rw [feedAll] at h
    cases hfeed : r.feed nesting t with
    | error e => simp [hfeed] at h
    | ok r₁ =>
      rw [hfeed] at h
      have hstep := Reading.nodes_feed ht hfeed
      exact (hstep ▸ List.prefix_append _ _ : r.nodes <+: r₁.nodes).trans (ih hts h)

theorem length_frames_feed {nesting : Nat} {r r' : Reading} {t : Token}
    (h : r.feed nesting t = .ok r') :
    r'.frames.length ≤ r.frames.length + if t.opens then 1 else 0 := by
  obtain ⟨lexeme, p⟩ := t
  obtain ⟨forms, frames⟩ := r
  cases lexeme with
  | fault f => cases h
  | atom v =>
    cases h
    simp
  | opening quoted =>
    simp only [Reading.feed] at h
    split_ifs at h
    cases h
    simp [Token.opens]
  | closing =>
    cases frames with
    | nil => cases h
    | cons f fs =>
      cases h
      simp [Token.opens]

theorem feed_under {big : Nat} {r r' : Reading} {t : Token} (h : r.feed big t = .ok r') (m : Nat) :
    (t.opens → r.frames.length < m) ∧ r.feed m t = .ok r' ∨
      m ≤ r.frames.length ∧ (∃ quoted, t.nodes r.frames.length =
        [⟨r.frames.length + 1, quoted, some t.position⟩]) ∧
      r.feed m t = .error ⟨.tooNested m, t.position⟩ := by
  obtain ⟨lexeme, p⟩ := t
  cases lexeme with
  | atom v => exact Or.inl ⟨by simp [Token.opens], h⟩
  | fault f => cases h
  | closing => exact Or.inl ⟨by simp [Token.opens], h⟩
  | opening quoted =>
    by_cases hfull : m ≤ r.frames.length
    · exact Or.inr ⟨hfull, ⟨quoted, rfl⟩, if_pos hfull⟩
    · refine Or.inl ⟨fun _ => by omega, ?_⟩
      simp only [Reading.feed] at h ⊢
      split_ifs at h
      rw [if_neg hfull]
      exact h

theorem guarded {m big : Nat} {r r' : Reading} {ts : List Token} (hts : ∀ t ∈ ts, t.Flat)
    (h : feedAll big r ts = .ok r') (hnodes : ∀ n ∈ r.nodes, n.level ≤ m)
    (hframes : r.frames.length ≤ m) : Guarded m r ts r' := by
  induction ts generalizing r with
  | nil =>
    cases h
    exact Or.inl ⟨hnodes, rfl⟩
  | cons t ts ih =>
    obtain ⟨ht, hts⟩ := List.forall_mem_cons.1 hts
    rw [feedAll] at h
    cases hfeed : r.feed big t with
    | error e => simp [hfeed] at h
    | ok r₁ =>
      rw [hfeed] at h
      have hstep : r₁.nodes = r.nodes ++ t.nodes r.frames.length := Reading.nodes_feed ht hfeed
      rcases feed_under hfeed m with ⟨hroom, hsame⟩ | ⟨hfull, ⟨quoted, hnode⟩, herror⟩
      · have hnodes₁ : ∀ n ∈ r₁.nodes, n.level ≤ m := by
          intro n hn
          rw [hstep] at hn
          rcases List.mem_append.1 hn with hn | hn
          · exact hnodes n hn
          · obtain ⟨hlevel, hopens⟩ := Token.level_of_mem_nodes hn
            have hlt := hroom hopens
            omega
        have hframes₁ : r₁.frames.length ≤ m := by
          have hlength := length_frames_feed hfeed
          split_ifs at hlength with hopens
          · have hlt := hroom hopens
            omega
          · omega
        rw [Guarded, feedAll, hsame]
        exact ih hts h hnodes₁ hframes₁
      · obtain ⟨after, hafter⟩ := nodes_prefix_feedAll hts h
        rw [hstep, hnode, List.append_assoc] at hafter
        refine Or.inr ⟨r.nodes, _, after, t.position, hafter.symm, hnodes, ?_, rfl, ?_⟩
        · dsimp only
          omega
        · rw [feedAll, herror]

theorem guarded_readForms {comments : Bool} {source : String} {big : Nat} {vs : List Value}
    (h : readForms ⟨comments, big⟩ source = .ok vs) (m : Nat) :
    ((∀ n ∈ listNodes vs, n.level ≤ m) ∧ readForms ⟨comments, m⟩ source = .ok vs) ∨
      ∃ before n after p, listNodes vs = before ++ n :: after ∧ (∀ x ∈ before, x.level ≤ m) ∧
        n.level = m + 1 ∧ n.opened = some p ∧
        readForms ⟨comments, m⟩ source = .error ⟨.tooNested m, p⟩ := by
  have hfeed := formsOfTokens_eq_ok_iff.1 h
  have hnone : ∀ n ∈ Reading.nodes {}, n.level ≤ m := by simp [Reading.nodes, Reading.frameNodes, nodesOf]
  have hguarded := guarded flat_of_mem_all hfeed hnone (Nat.zero_le m)
  rw [Guarded, nodes_of_closed] at hguarded
  rcases hguarded with ⟨hle, hok⟩ | ⟨before, n, after, p, hsplit, hbefore, hlevel, hopened, herror⟩
  · exact Or.inl ⟨hle, formsOfTokens_eq_ok_iff.2 hok⟩
  · refine Or.inr ⟨before, n, after, p, hsplit, hbefore, hlevel, hopened, ?_⟩
    rw [readForms, formsOfTokens, herror]

theorem level_le_count {config : ReaderConfig} {source : String} {vs : List Value}
    (h : readForms config source = .ok vs) :
    ∀ n ∈ listNodes vs, n.level ≤ source.toList.count '(' := by
  intro n hn
  have hfeed := formsOfTokens_eq_ok_iff.1 h
  have hlength := Reading.length_nodes_feedAll flat_of_mem_all hfeed
  have hcount := countP_opens_le config.comments (Glyph.ofText source)
  have hlevel := level_lt_of_mem_nodesOf 1 vs n hn
  rw [nodes_of_closed, listNodes] at hlength
  rw [Glyph.ofText, Grammar.chars_place, ← Glyph.ofText] at hcount
  have hempty : (Reading.nodes {}).length = 0 := by simp [Reading.nodes, Reading.frameNodes, nodesOf]
  omega

/-- The limit on nesting is only a guard. A text that is not refused for it is read in the same way under
any higher limit. Under `m` a text is read if its lists, as read under a limit high enough, nest at most
`m` deep, and else it is refused at the first list of level `m + 1`. -/
theorem nesting_only_guards (comments : Bool) (source : String) (m : Nat) :
    (∀ m', m ≤ m' →
      (∀ e, readForms ⟨comments, m⟩ source = .error e → e.fault.kind ≠ .tooDeeplyNested) →
      readForms ⟨comments, m'⟩ source = readForms ⟨comments, m⟩ source) ∧
    ∀ big, source.toList.count '(' ≤ big →
      (∀ vs, readForms ⟨comments, m⟩ source = .ok vs ↔
        readForms ⟨comments, big⟩ source = .ok vs ∧ ∀ n ∈ listNodes vs, n.level ≤ m) ∧
      ∀ vs, readForms ⟨comments, big⟩ source = .ok vs → (∃ n ∈ listNodes vs, m < n.level) →
        ∃ n p, (listNodes vs).find? (·.level == m + 1) = some n ∧ n.opened = some p ∧
          readForms ⟨comments, m⟩ source = .error ⟨.tooNested m, p⟩ := by
  refine ⟨?_, fun big hbig => ⟨fun vs => ⟨?_, ?_⟩, ?_⟩⟩
  · intro m' hm hkind
    rcases formsOfTokens_raise hm (Token.all comments (Glyph.ofText source)) with hsame | ⟨p, herror⟩
    · exact hsame
    · exact absurd rfl (hkind _ herror)
  · intro hread
    have hle : ∀ n ∈ listNodes vs, n.level ≤ m := by
      rcases guarded_readForms hread m with ⟨hle, -⟩ | ⟨_, _, _, _, _, _, _, _, herror⟩
      · exact hle
      · simp [hread] at herror
    rcases guarded_readForms hread big with ⟨-, hok⟩ | ⟨before, n, after, _, hsplit, _, hlevel, _, _⟩
    · exact ⟨hok, hle⟩
    · have hcount := level_le_count hread n (by simp [hsplit])
      omega
  · rintro ⟨hread, hle⟩
    rcases guarded_readForms hread m with ⟨-, hok⟩ | ⟨before, n, after, _, hsplit, _, hlevel, _, _⟩
    · exact hok
    · have hn := hle n (by simp [hsplit])
      omega
  · rintro vs hread ⟨x, hx, hdeep⟩
    rcases guarded_readForms hread m with
      ⟨hle, -⟩ | ⟨before, n, after, p, hsplit, hbefore, hlevel, hopened, herror⟩
    · have hshallow := hle x hx
      omega
    · refine ⟨n, p, ?_, hopened, herror⟩
      have hskip : before.find? (·.level == m + 1) = none := by
        rw [List.find?_eq_none]
        intro y hy heq
        have hy' := hbefore y hy
        rw [beq_iff_eq] at heq
        omega
      rw [hsplit, List.find?_append, hskip, Option.none_or, List.find?_cons_of_pos]
      exact beq_iff_eq.2 hlevel

/-- The first of two lists at level three is refused under the limit two. A parenthesis that closes
nothing is reported under every limit from three on. -/
theorem nesting_only_guards_twice :
    readForms ⟨false, 5⟩ "('(a (b)) (c (d)))" =
      .ok [.list [.list [.symbol "a", .list [.symbol "b"] false (some ⟨1, 6⟩)] true (some ⟨1, 2⟩),
        .list [.symbol "c", .list [.symbol "d"] false (some ⟨1, 14⟩)] false (some ⟨1, 11⟩)] false
          (some ⟨1, 1⟩)] ∧
    readForms ⟨false, 2⟩ "('(a (b)) (c (d)))" = .error ⟨.tooNested 2, ⟨1, 6⟩⟩ ∧
    readForms ⟨false, 3⟩ "(((a))))" = .error ⟨.strayClose, ⟨1, 8⟩⟩ ∧
    readForms ⟨false, 9⟩ "(((a))))" = .error ⟨.strayClose, ⟨1, 8⟩⟩ := by
  have hread : readForms ⟨false, 5⟩ "('(a (b)) (c (d)))" =
      .ok [.list [.list [.symbol "a", .list [.symbol "b"] false (some ⟨1, 6⟩)] true (some ⟨1, 2⟩),
        .list [.symbol "c", .list [.symbol "d"] false (some ⟨1, 14⟩)] false (some ⟨1, 11⟩)] false
          (some ⟨1, 1⟩)] := by decide +kernel
  have hstray : readForms ⟨false, 3⟩ "(((a))))" = .error ⟨.strayClose, ⟨1, 8⟩⟩ := by decide +kernel
  obtain ⟨n, p, hfirst, hopened, herror⟩ :=
    ((nesting_only_guards false "('(a (b)) (c (d)))" 2).2 5 (by decide)).2 _ hread
      ⟨⟨3, false, some ⟨1, 6⟩⟩, by decide, by decide⟩
  have hn : n = ⟨3, false, some ⟨1, 6⟩⟩ := by
    have hfind : some n = some ⟨3, false, some ⟨1, 6⟩⟩ := hfirst.symm.trans (by decide)
    exact Option.some.inj hfind
  subst hn
  obtain rfl : (⟨1, 6⟩ : Position) = p := Option.some.inj hopened
  refine ⟨hread, herror, hstray, ?_⟩
  rw [(nesting_only_guards false "(((a))))" 3).1 9 (by decide) fun e he => ?_, hstray]
  rw [hstray] at he
  cases he
  decide

end MiniLisp
