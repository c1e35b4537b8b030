import MiniLisp.Proofs.Extension

/-! The lists in forms, in the order in which they start. A reading meets them in that order too: a token
that opens a list adds one at the end, as deep as there are open lists, and no other token adds or moves
any (`Reading.nodes_feed`). -/

namespace MiniLisp

open Grammar
open Reading (feedAll)

/-- A list in forms: how many lists it stands in, itself included, and how and where it starts. -/
structure Node where
  level : Nat
  quoted : Bool
  opened : Option Position
deriving DecidableEq

namespace Value

mutual

/-- The lists of a form that stands at `level`, each before those in it. -/
def nodes (level : Nat) : Value → List Node
  | list items quoted opened => ⟨level, quoted, opened⟩ :: nodesOf (level + 1) items
  | _ => []

def nodesOf (level : Nat) : List Value → List Node
  | [] => []
  | v :: vs => nodes level v ++ nodesOf level vs

end

/-- The lists of a program. -/
def listNodes (vs : List Value) : List Node := nodesOf 1 vs

theorem nodesOf_append (level : Nat) (vs ws : List Value) :
    nodesOf level (vs ++ ws) = nodesOf level vs ++ nodesOf level ws := by
  induction vs with
  | nil => rfl
  | cons v vs ih => rw [List.cons_append, nodesOf, ih, nodesOf, List.append_assoc]

theorem nodesOf_singleton (level : Nat) (v : Value) : nodesOf level [v] = nodes level v := by
  rw [nodesOf, nodesOf, List.append_nil]

mutual

theorem level_lt_of_mem_nodes (level : Nat) :
    ∀ v : Value, ∀ n ∈ nodes level v, n.level < level + (nodes level v).length
  | list items quoted opened => by
    intro n hn
    rw [nodes] at hn ⊢
    rw [List.length_cons]
    rcases List.mem_cons.1 hn with rfl | hn
    · simp
    · have hlt := level_lt_of_mem_nodesOf (level + 1) items n hn
      omega
  | nil | bool _ | number _ | string _ | symbol _ | keyword _ | native .. | lambda .. | special _ => by
    simp [nodes]

theorem level_lt_of_mem_nodesOf (level : Nat) :
    ∀ vs : List Value, ∀ n ∈ nodesOf level vs, n.level < level + (nodesOf level vs).length
  | [] => by simp [nodesOf]
  | v :: vs => by
    intro n hn
    rw [nodesOf] at hn ⊢
    rw [List.length_append]
    rcases List.mem_append.1 hn with hn | hn
    · have hlt := level_lt_of_mem_nodes level v n hn
      omega
    · have hlt := level_lt_of_mem_nodesOf level vs n hn
      omega

end

end Value

open Value

/-! Tokens. -/

namespace Token

def nodes (depth : Nat) (t : Token) : List Node :=
  match t.lexeme with
  | .opening quoted => [⟨depth + 1, quoted, some t.position⟩]
  | _ => []

def opens (t : Token) : Bool :=
  match t.lexeme with
  | .opening _ => true
  | _ => false

theorem length_nodes (depth : Nat) (t : Token) :
    (t.nodes depth).length = if t.opens then 1 else 0 := by
  obtain ⟨lexeme, p⟩ := t
  cases lexeme <;> rfl

theorem level_of_mem_nodes {depth : Nat} {t : Token} {n : Node} (h : n ∈ t.nodes depth) :
    n.level = depth + 1 ∧ t.opens := by
  obtain ⟨lexeme, p⟩ := t
  cases lexeme with
  | opening quoted =>
    obtain rfl := List.mem_singleton.1 h
    exact ⟨rfl, rfl⟩
  | _ => cases h

/-- The token is no list by itself. -/
def Flat (t : Token) : Prop := ∀ v, t.lexeme = .atom v → ∀ level, v.nodes level = []

end Token

theorem nodes_of_atom {gs rest : List Glyph} {v : Value} (h : Atom gs v rest) (level : Nat) :
    v.nodes level = [] := by
  cases h <;> rfl

theorem flat_of_lexed {g : Glyph} {gs rest : List Glyph} {t : Token} (h : Lexed g gs (t, rest)) :
    t.Flat := by
  rintro v hv level
  cases h with
  | atom _ _ ha =>
    cases hv
    exact nodes_of_atom ha level
  | closing _ => cases hv
  | opening _ _ => cases hv
  | fault _ _ => cases hv

/-- How the tokens of a text start: it starts with what gives no token, or with a token, before what is
left of it. -/
inductive Split (comments : Bool) (g : Glyph) (gs : List Glyph) : Prop
  | skip {rest : List Glyph} : rest <:+ gs →
    Token.all comments (g :: gs) = Token.all comments rest → Split comments g gs
  | token {t : Token} {rest : List Glyph} : rest <:+ gs → Lexed g gs (t, rest) →
    Token.all comments (g :: gs) = t :: Token.all comments rest → Split comments g gs

theorem suffix_of_lexed {g : Glyph} {gs rest : List Glyph} {t : Token} (h : Lexed g gs (t, rest)) :
    rest <:+ gs := by
  cases h with
  | closing _ => exact List.suffix_rfl
  | opening heq ho => exact suffix_of_append heq (opener_ne_nil ho)
  | atom heq _ ha => exact suffix_of_append heq (atom_ne_nil ha)
  | fault _ _ => exact List.nil_suffix

theorem split (comments : Bool) (g : Glyph) (gs : List Glyph) : Split comments g gs := by
  cases starts comments g gs with
  | blank hblank => exact .skip List.suffix_rfl (all_blank hblank gs)
  | comment hc hg hafter => exact .skip (afterComment_suffix hafter) (all_comment hc hg hafter)
  | token hblank hplain =>
    have hlex : Lexed g gs (Token.ofGlyphs g gs) := lexed_ofGlyphs hblank
    exact .token (suffix_of_lexed hlex) hlex (all_ofGlyphs hblank hplain)

theorem all_induction (comments : Bool) {P : List Glyph → Prop} (nil : P [])
    (skip : ∀ g gs rest, rest <:+ gs → Token.all comments (g :: gs) = Token.all comments rest →
      P rest → P (g :: gs))
    (token : ∀ g gs t rest, rest <:+ gs → Lexed g gs (t, rest) →
      Token.all comments (g :: gs) = t :: Token.all comments rest → P rest → P (g :: gs))
    (gs : List Glyph) : P gs := by
  induction hn : gs.length using Nat.strongRecOn generalizing gs with
  | ind n ih =>
    subst hn
    cases gs with
    | nil => exact nil
    | cons g gs =>
      have hrest {rest : List Glyph} (h : rest <:+ gs) : P rest :=
        ih rest.length (Nat.lt_succ_of_le h.length_le) rest rfl
      cases split comments g gs with
      | skip hsuffix hall => exact skip g gs _ hsuffix hall (hrest hsuffix)
      | token hsuffix hlex hall => exact token g gs _ _ hsuffix hlex hall (hrest hsuffix)

theorem flat_of_mem_all {comments : Bool} {gs : List Glyph} :
    ∀ t ∈ Token.all comments gs, t.Flat := by
  induction gs using all_induction comments with
  | nil =>
    rw [Token.all]
    simp
  | skip g gs rest _ hall ih => rwa [hall]
  | token g gs t rest _ hlex hall ih =>
    rw [hall]
    exact List.forall_mem_cons.2 ⟨flat_of_lexed hlex, ih⟩

theorem count_paren_of_suffix {gs rest : List Glyph} (h : rest <:+ gs) :
    (Token.chars rest).count '(' ≤ (Token.chars gs).count '(' :=
  (h.sublist.map Glyph.char).count_le '('

theorem countP_opens_le (comments : Bool) (gs : List Glyph) :
    (Token.all comments gs).countP Token.opens ≤ (Token.chars gs).count '(' := by
  induction gs using all_induction comments with
  | nil =>
    rw [Token.all]
    simp
  | skip g gs rest hsuffix hall ih =>
    rw [hall]
    exact ih.trans (count_paren_of_suffix (hsuffix.trans (List.suffix_cons g gs)))
  | token g gs t rest hsuffix hlex hall ih =>
    rw [hall, List.countP_cons]
    have hle := count_paren_of_suffix (hsuffix.trans (List.suffix_cons g gs))
    cases hlex with
    | closing _ => exact ih.trans hle
    | atom _ _ _ => exact ih.trans hle
    | fault _ _ => exact ih.trans hle
    | opening heq ho =>
      have hparen : (Token.chars (g :: gs)).count '(' = (Token.chars rest).count '(' + 1 := by
        rw [heq]
        cases ho with
        | plain ho => simp [Token.chars, ho]
        | quoted hq ho => simp [Token.chars, hq, ho]
      rw [hparen]
      exact Nat.succ_le_succ ih

/-! Readings. -/

namespace Reading

def frameNodes : List Frame → List Node
  | [] => []
  | f :: fs =>
    frameNodes fs ++ nodesOf (fs.length + 1) f.before.reverse ++
      [⟨fs.length + 1, f.quoted, some f.opened⟩]

/-- All lists that a reading has met. -/
def nodes (r : Reading) : List Node :=
  frameNodes r.frames ++ nodesOf (r.frames.length + 1) r.forms.reverse

theorem nodes_feed {nesting : Nat} {r r' : Reading} {t : Token} (ht : t.Flat)
    (h : r.feed nesting t = .ok r') : r'.nodes = r.nodes ++ t.nodes r.frames.length := by
  obtain ⟨lexeme, p⟩ := t
  obtain ⟨forms, frames⟩ := r
  cases lexeme with
  | fault f => cases h
  | atom v =>
    cases h
    simp [nodes, Token.nodes, nodesOf_append, nodesOf_singleton, ht v rfl]
  | opening quoted =>
    simp only [feed] at h
    split_ifs at h
    cases h
    simp [nodes, frameNodes, Token.nodes, nodesOf]
  | closing =>
    cases frames with
    | nil => cases h
    | cons f fs =>
      cases h
      simp [nodes, frameNodes, Token.nodes, nodesOf_append, nodesOf_singleton, Value.nodes]

theorem length_nodes_feedAll {nesting : Nat} {r r' : Reading} {ts : List Token}
    (hts : ∀ t ∈ ts, t.Flat) (h : feedAll nesting r ts = .ok r') :
    r'.nodes.length = r.nodes.length + ts.countP Token.opens := by
  induction ts generalizing r with
  | nil =>
    cases h
    rfl
  | cons t ts ih =>
    obtain ⟨ht, hts⟩ := List.forall_mem_cons.1 hts
    rw [feedAll] at h
    cases hfeed : r.feed nesting t with
    | error e => simp [hfeed] at h
    | ok r₁ =>
      rw [hfeed] at h
      rw [ih hts h, nodes_feed ht hfeed, List.length_append, Token.length_nodes, List.countP_cons]
      omega

end Reading

theorem formsOfTokens_eq_ok_iff {nesting : Nat} {ts : List Token} {vs : List Value} :
    formsOfTokens nesting ts = .ok vs ↔ feedAll nesting {} ts = .ok ⟨vs.reverse, []⟩ := by
  rw [formsOfTokens]
  cases feedAll nesting {} ts with
  | error e => simp
  | ok r =>
    obtain ⟨forms, frames⟩ := r
    cases frames with
    | nil => simp [Reading.finish, List.reverse_eq_iff]
    | cons f fs => simp [Reading.finish]

theorem nodes_of_closed (vs : List Value) : Reading.nodes ⟨vs.reverse, []⟩ = listNodes vs := by
  simp [Reading.nodes, Reading.frameNodes, listNodes]

end MiniLisp
