import Mathlib.Algebra.Ring.Int.Defs
import MiniLisp.Proofs.Completion
import MiniLisp.Proofs.Layout
import MiniLisp.Proofs.Nodes

/-! The reader follows the layout of its text. As long as it finds no error, the lists it has met are
those that the text has opened, and the lists it holds open are those that the text has left open
(`Tracks`); each stretch of text keeps it so, and an error can be read off the place where it does not
(`tracks_run`). -/

namespace MiniLisp.Layout

open Grammar
open Reading (feedAll)

/-! Open lists. -/

/-- How many more lists the characters open than they close. -/
def depth (ms : List Mark) : Int := (ms.map (·.role.weight)).sum

/-- Each list that is opened is closed, and none is closed that has not been opened. -/
def Balanced (ms : List Mark) : Prop :=
  depth ms = 0 ∧ ∀ before after, ms = before ++ after → 0 ≤ depth before

/-- The character may stand where `count` lists are open: what closes a list needs an open one, what opens
a list needs room for it, and what stands behind a backslash has to make an escape sequence. -/
def Permitted (limit : Nat) (count : Int) (m : Mark) : Prop :=
  match m.role with
  | .closing => 0 < count
  | .opening _ => count < limit
  | .escape => m.char ∈ letters
  | _ => True

def SoundFrom (limit : Nat) : Int → List Mark → Prop
  | _, [] => True
  | count, m :: ms => Permitted limit count m ∧ SoundFrom limit (count + m.role.weight) ms

/-- The text is free of errors, as far as it goes. -/
def Sound (limit : Nat) (ms : List Mark) : Prop := SoundFrom limit 0 ms

@[simp] theorem depth_nil : depth [] = 0 := rfl

@[simp] theorem depth_cons (m : Mark) (ms : List Mark) : depth (m :: ms) = m.role.weight + depth ms := by
  simp [depth]

@[simp] theorem depth_append (ms ns : List Mark) : depth (ms ++ ns) = depth ms + depth ns := by
  simp [depth]

theorem depth_of_quiet {ms : List Mark} (h : ∀ m ∈ ms, Quiet m) : depth ms = 0 := by
  induction ms with
  | nil => rfl
  | cons m ms ih =>
    obtain ⟨hm, hms⟩ := List.forall_mem_cons.1 h
    rw [depth_cons, hm.1, ih hms]
    rfl

theorem balanced_of_quiet {ms : List Mark} (h : ∀ m ∈ ms, Quiet m) : Balanced ms := by
  refine ⟨depth_of_quiet h, ?_⟩
  rintro before after rfl
  exact Int.le_of_eq (depth_of_quiet fun m hm => h m (List.mem_append_left after hm)).symm

theorem Balanced.append {ms ns : List Mark} (hms : Balanced ms) (hns : Balanced ns) :
    Balanced (ms ++ ns) := by
  refine ⟨by rw [depth_append, hms.1, hns.1]; rfl, ?_⟩
  intro before after heq
  rcases List.append_eq_append_iff.1 heq with ⟨mid, rfl, hmid⟩ | ⟨mid, hmid, -⟩
  · have hmid' := hns.2 mid after hmid
    rw [depth_append, hms.1]
    omega
  · exact hms.2 before mid hmid

theorem Balanced.enclose {o c : Mark} {ms : List Mark} {quoted : Bool} (ho : o.role = .opening quoted)
    (hms : Balanced ms) (hc : c.role = .closing) : Balanced (o :: ms ++ [c]) := by
  have hweight : o.role.weight = 1 ∧ c.role.weight = -1 := by simp [ho, hc, Role.weight]
  refine ⟨by simp [hweight, hms.1], ?_⟩
  intro before after heq
  cases before with
  | nil => simp
  | cons x before =>
    obtain rfl : o = x := (List.cons.inj heq).1
    have htail : ms ++ [c] = before ++ after := (List.cons.inj heq).2
    rw [depth_cons, hweight.1]
    rcases List.append_eq_append_iff.1 htail with ⟨mid, rfl, hmid⟩ | ⟨mid, hmid, -⟩
    · rcases List.singleton_eq_append_iff.1 hmid with ⟨rfl, -⟩ | ⟨rfl, -⟩
      · simp [hms.1]
      · simp [hms.1, hweight]
    · have hle := hms.2 before mid hmid
      omega

theorem soundFrom_append {limit : Nat} {count : Int} {ms ns : List Mark} :
    SoundFrom limit count (ms ++ ns) ↔
      SoundFrom limit count ms ∧ SoundFrom limit (count + depth ms) ns := by
  induction ms generalizing count with
  | nil => simp [SoundFrom]
  | cons m ms ih =>
    rw [List.cons_append, SoundFrom, ih, SoundFrom, depth_cons, and_assoc, Int.add_assoc]

theorem sound_append {limit : Nat} {ms ns : List Mark} :
    Sound limit (ms ++ ns) ↔ Sound limit ms ∧ SoundFrom limit (depth ms) ns := by
  rw [Sound, soundFrom_append, Int.zero_add, Sound]

theorem Quiet.permitted {m : Mark} (h : Quiet m) (limit : Nat) (count : Int) : Permitted limit count m := by
  obtain ⟨hweight, hletter⟩ := h
  unfold Permitted
  split
  · rename_i hrole
    simp [hrole, Role.weight] at hweight
  · rename_i hrole
    simp [hrole, Role.weight] at hweight
  · rename_i hrole
    exact hletter hrole
  · trivial

theorem soundFrom_of_quiet {ms : List Mark} (h : ∀ m ∈ ms, Quiet m) (limit : Nat) (count : Int) :
    SoundFrom limit count ms := by
  induction ms generalizing count with
  | nil => trivial
  | cons m ms ih =>
    obtain ⟨hm, hms⟩ := List.forall_mem_cons.1 h
    exact ⟨hm.permitted limit count, ih hms _⟩

theorem Outside.append {ms ns : List Mark} (hms : Outside ms) (hns : Outside ns) : Outside (ms ++ ns) := by
  intro m hm
  rw [List.getLast?_append] at hm
  cases hlast : ns.getLast? with
  | none =>
    rw [hlast, Option.none_or] at hm
    exact hms m hm
  | some x =>
    rw [hlast, Option.some_or] at hm
    exact hns m (hlast.trans hm)

/-- The lists that a text has left open, from the innermost out. -/
inductive Unclosed : List Mark → List Frame → Prop
  | nil {ms : List Mark} : Balanced ms → Unclosed ms []
  | cons {before after : List Mark} {m : Mark} {f : Frame} {fs : List Frame} : Unclosed before fs →
    m.role = .opening f.quoted → m.position = f.opened → Balanced after →
    Unclosed (before ++ m :: after) (f :: fs)

theorem Unclosed.depth_eq {ms : List Mark} {fs : List Frame} (h : Unclosed ms fs) :
    depth ms = fs.length := by
  induction h with
  | nil hms => exact hms.1
  | cons _ hrole _ hafter ih =>
    simp [ih, hrole, hafter.1, Role.weight]

theorem Unclosed.append_balanced {ms ns : List Mark} {fs : List Frame} (h : Unclosed ms fs)
    (hns : Balanced ns) : Unclosed (ms ++ ns) fs := by
  cases h with
  | nil hms => exact .nil (hms.append hns)
  | cons hbefore hrole hposition hafter =>
    rw [List.append_assoc]
    exact .cons hbefore hrole hposition (hafter.append hns)

theorem Unclosed.close {ms : List Mark} {f : Frame} {fs : List Frame} {c : Mark}
    (h : Unclosed ms (f :: fs)) (hc : c.role = .closing) : Unclosed (ms ++ [c]) fs := by
  cases h with
  | cons hbefore hrole _ hafter =>
    rw [List.append_assoc]
    exact hbefore.append_balanced (hafter.enclose hrole hc)

theorem Unclosed.balanced {ms : List Mark} (h : Unclosed ms []) : Balanced ms := by
  cases h with
  | nil hms => exact hms

theorem Unclosed.innermost {ms : List Mark} {f : Frame} {fs : List Frame} (h : Unclosed ms (f :: fs)) :
    ∃ before m after, ms = before ++ m :: after ∧ m.role = .opening f.quoted ∧ m.position = f.opened ∧
      Balanced after := by
  cases h with
  | @cons before after m _ _ _ hrole hposition hafter =>
    exact ⟨before, m, after, rfl, hrole, hposition, hafter⟩

/-! What the reader knows. -/

/-- How and where lists are opened, in order. -/
def openings (ms : List Mark) : List (Bool × Position) :=
  ms.filterMap fun m =>
    match m.role with
    | .opening quoted => some (quoted, m.position)
    | _ => none

theorem openings_append (ms ns : List Mark) : openings (ms ++ ns) = openings ms ++ openings ns :=
  List.filterMap_append

theorem openings_of_quiet {ms : List Mark} (h : ∀ m ∈ ms, Quiet m) : openings ms = [] := by
  rw [openings, List.filterMap_eq_nil_iff]
  intro m hm
  have hweight := (h m hm).1
  split
  · rename_i hrole
    simp [hrole, Role.weight] at hweight
  · rfl

/-- The reading is that of the text so far, in which there is no error. -/
structure Tracks (limit : Nat) (ms : List Mark) (r : Reading) : Prop where
  nodes : r.nodes.map (fun n => (n.quoted, n.opened)) = (openings ms).map fun o => (o.1, some o.2)
  sound : Sound limit ms
  lists : Unclosed ms r.frames
  room : r.frames.length ≤ limit
  outside : Outside ms

/-- What an error tells: of what kind it is, what is wrong in words, where, and with which text. -/
structure Report where
  kind : ReadKind
  message : String
  position : Position
  found : Option String
deriving DecidableEq

/-- What is wrong with a text. In each case there is no error before that; where the text is only
incomplete, there is none at all. -/
inductive Diagnosis (limit : Nat) (ms : List Mark) : Report → Prop
  /-- A parenthesis closes a list, but none is open. -/
  | strayClose (before : List Mark) (m : Mark) (after : List Mark) : ms = before ++ m :: after →
    Sound limit before → m.role = .closing → depth before = 0 →
    Diagnosis limit ms ⟨.invalidSyntax, "Unexpected ')' with no open list", m.position, some ")"⟩
  /-- All that is opened behind a list is closed, but it is not, and the text does not end in a string. -/
  | unclosed (before : List Mark) (m : Mark) (after : List Mark) {quoted : Bool} :
    ms = before ++ m :: after → Sound limit ms → m.role = .opening quoted → Balanced after → Outside ms →
    Diagnosis limit ms ⟨.incomplete, "Unclosed list opened at " ++ m.position.text, m.position, none⟩
  /-- All that follows a double quote is in the string that it starts. -/
  | unterminated (before : List Mark) (m : Mark) (after : List Mark) : ms = before ++ m :: after →
    Sound limit ms → m.role = .quote → (∀ x ∈ after, x.role = .text ∨ x.role = .escape) →
    Diagnosis limit ms ⟨.incomplete, "Unterminated string literal", m.position, none⟩
  /-- A character behind a backslash makes no escape sequence. -/
  | badEscape (before : List Mark) (m : Mark) (after : List Mark) : ms = before ++ m :: after →
    Sound limit before → m.role = .escape → m.char ∉ letters →
    Diagnosis limit ms ⟨.invalidEscape, "Invalid escape sequence '\\" ++ String.singleton m.char ++ "'",
      m.position, some (String.singleton m.char)⟩
  /-- A list is opened, but as many are open as may be. -/
  | tooNested (before : List Mark) (m : Mark) (after : List Mark) {quoted : Bool} :
    ms = before ++ m :: after → Sound limit before → m.role = .opening quoted → depth before = limit →
    Diagnosis limit ms ⟨.tooDeeplyNested,
      "Expression too deeply nested (max depth: " ++ Text.ofNat limit ++ ")", m.position, none⟩

def report (e : ReadError) : Report := ⟨e.fault.kind, e.fault.message, e.position, e.fault.found⟩

/-- The error is what is wrong with the text. -/
def Diagnosed (limit : Nat) (ms : List Mark) (e : ReadError) : Prop := Diagnosis limit ms (report e)

section

variable {limit : Nat} {ms ns : List Mark} {r : Reading}

theorem Tracks.depth_eq (h : Tracks limit ms r) : depth ms = r.frames.length := h.lists.depth_eq

theorem Tracks.sound_append (h : Tracks limit ms r) (hns : SoundFrom limit r.frames.length ns) :
    Sound limit (ms ++ ns) :=
  Layout.sound_append.2 ⟨h.sound, h.depth_eq ▸ hns⟩

theorem Tracks.append_quiet {r' : Reading} (h : Tracks limit ms r) (hns : ∀ m ∈ ns, Quiet m)
    (houtside : Outside ns) (hnodes : r'.nodes = r.nodes) (hframes : r'.frames = r.frames) :
    Tracks limit (ms ++ ns) r' where
  nodes := by
    rw [hnodes, h.nodes, openings_append, openings_of_quiet hns, List.append_nil]
  sound := h.sound_append (soundFrom_of_quiet hns limit _)
  lists := hframes ▸ h.lists.append_balanced (balanced_of_quiet hns)
  room := hframes ▸ h.room
  outside := h.outside.append houtside

/-- What comes of a stretch of text: the reader follows it, or says what is wrong with it, however the
text goes on. -/
def Followed (limit : Nat) (ms : List Mark) : Except ReadError Reading → Prop
  | .ok r => Tracks limit ms r
  | .error e => ∀ after, Diagnosed limit (ms ++ after) e

theorem Tracks.follow_opening {m : Mark} {quoted : Bool} (h : Tracks limit ms r)
    (hm : m.role = .opening quoted) (hns : ∀ x ∈ ns, Quiet x) (houtside : Outside (m :: ns)) :
    Followed limit (ms ++ m :: ns) (r.feed limit ⟨.opening quoted, m.position⟩) := by
  have hdepth := h.depth_eq
  by_cases hfull : limit ≤ r.frames.length
  · have hfeed : r.feed limit ⟨.opening quoted, m.position⟩ = .error ⟨.tooNested limit, m.position⟩ :=
      if_pos hfull
    rw [hfeed]
    intro after
    have hroom := h.room
    exact .tooNested ms m (ns ++ after) (by simp) h.sound hm (by omega)
  · have hfeed : r.feed limit ⟨.opening quoted, m.position⟩ =
        .ok ⟨[], ⟨quoted, m.position, r.forms⟩ :: r.frames⟩ := if_neg hfull
    have hnodes := Reading.nodes_feed (t := ⟨.opening quoted, m.position⟩) (by rintro v ⟨⟩) hfeed
    have hopenings : openings (m :: ns) = [(quoted, m.position)] := by
      rw [← List.singleton_append, openings_append, openings_of_quiet hns]
      simp [openings, hm]
    rw [hfeed]
    refine ⟨?_, ?_, ?_, ?_, h.outside.append houtside⟩
    · rw [hnodes, List.map_append, h.nodes, openings_append, hopenings, List.map_append]
      rfl
    · have hpermitted : Permitted limit r.frames.length m := by
        rw [Permitted, hm]
        dsimp only
        omega
      exact h.sound_append ⟨hpermitted, soundFrom_of_quiet hns limit _⟩
    · exact .cons h.lists hm rfl (balanced_of_quiet hns)
    · rw [List.length_cons]
      omega

theorem Tracks.follow_closing {m : Mark} (h : Tracks limit ms r) (hm : m.role = .closing) :
    Followed limit (ms ++ [m]) (r.feed limit ⟨.closing, m.position⟩) := by
  have hdepth := h.depth_eq
  obtain ⟨forms, frames⟩ := r
  cases frames with
  | nil =>
    intro after
    exact .strayClose ms m after (by simp) h.sound hm hdepth
  | cons f fs =>
    have hfeed : Reading.feed limit ⟨forms, f :: fs⟩ ⟨.closing, m.position⟩ =
        .ok ⟨.list forms.reverse f.quoted (some f.opened) :: f.before, fs⟩ := rfl
    have hnodes := Reading.nodes_feed (t := ⟨.closing, m.position⟩) (by rintro v ⟨⟩) hfeed
    have hopenings : openings [m] = [] := by simp [openings, hm]
    rw [hfeed]
    refine ⟨?_, ?_, h.lists.close hm, ?_, ?_⟩
    · rw [hnodes, List.map_append, h.nodes, openings_append, hopenings, List.map_append]
      rfl
    · have hpermitted : Permitted limit (f :: fs).length m := by
        rw [Permitted, hm]
        dsimp only
        rw [List.length_cons]
        omega
      exact h.sound_append ⟨hpermitted, trivial⟩
    · exact (Nat.le_succ _).trans h.room
    · exact outside_concat ms (by simp [hm])

theorem feedAll_singleton (limit : Nat) (r : Reading) (t : Token) :
    feedAll limit r [t] = r.feed limit t := by
  rw [feedAll]
  cases r.feed limit t <;> rfl

theorem Tracks.follow {ts : List Token} (h : Tracks limit ms r) (hts : Stretch ts ns) :
    Followed limit (ms ++ ns) (feedAll limit r ts) := by
  cases hts with
  | skip hquiet houtside => exact h.append_quiet hquiet houtside rfl rfl
  | @atom _ _ v p _ ha hquiet houtside =>
    have hflat : Token.Flat ⟨.atom v, p⟩ := by
      rintro w ⟨⟩ level
      exact nodes_of_atom ha level
    have hfeed : r.feed limit ⟨.atom v, p⟩ = .ok ⟨v :: r.forms, r.frames⟩ := rfl
    have hnodes := (Reading.nodes_feed hflat hfeed).trans (List.append_nil _)
    rw [feedAll_singleton, hfeed]
    exact h.append_quiet hquiet houtside hnodes rfl
  | opening m ns hm hquiet houtside =>
    rw [feedAll_singleton]
    exact h.follow_opening hm hquiet houtside
  | closing hm =>
    rw [feedAll_singleton]
    exact h.follow_closing hm

end

/-- What comes of a whole text. -/
def Judged (limit : Nat) (ms : List Mark) : Except ReadError Reading → Prop
  | .ok r => Tracks limit ms r
  | .error e => Diagnosed limit ms e

/-- The reader follows the whole text, unless there is an error in it. The induction is on the length of
what is left, of which each step of the scan takes a stretch. -/
theorem tracks_run {comments : Bool} {limit : Nat} {ms : List Mark} {r : Reading} (h : Tracks limit ms r)
    (gs : List Glyph) :
    Judged limit (ms ++ marks (skipped comments) .between gs)
      (feedAll limit r (Token.all comments gs)) := by
  induction hn : gs.length using Nat.strongRecOn generalizing gs ms r with
  | ind n ih =>
    subst hn
    cases gs with
    | nil =>
      rw [Token.all, feedAll, marks, List.append_nil]
      exact h
    | cons g gs =>
      cases scanned comments g gs with
      | stretch ts ns rest hlength hall hmarks hstretch =>
        have hstep := h.follow hstretch
        rw [hall, feedAll_append, hmarks, ← List.append_assoc]
        cases hfeed : feedAll limit r ts with
        | ok r' =>
          rw [hfeed] at hstep
          exact ih rest.length hlength hstep rest rfl
        | error e =>
          rw [hfeed] at hstep
          exact hstep _
      | cut m ns hall hm hns hmarks =>
        have hpermitted : Permitted limit r.frames.length m := by simp [Permitted, hm]
        have hquiet : ∀ x ∈ ns, Quiet x := fun x hx => (hns x hx).quiet
        rw [hall, hmarks, feedAll_singleton]
        refine .unterminated ms m ns rfl ?_ hm fun x hx => (hns x hx).imp id And.left
        exact h.sound_append ⟨hpermitted, soundFrom_of_quiet hquiet limit _⟩
      | refused before m after hall hbefore hm hletter hmarks =>
        rw [hall, hmarks, feedAll_singleton]
        refine .badEscape (ms ++ before) m after (by simp) ?_ hm hletter
        exact h.sound_append (soundFrom_of_quiet hbefore limit _)

theorem tracks_empty (limit : Nat) : Tracks limit [] {} where
  nodes := by simp [Reading.nodes, Reading.frameNodes, Value.nodesOf, openings]
  sound := trivial
  lists := .nil (balanced_of_quiet (by simp))
  room := Nat.zero_le limit
  outside := by simp [Outside]

/-- A reading that gives an error is that of a text with something wrong; and one that gives forms has
met their lists. -/
theorem judged_ofText (config : ReaderConfig) (source : String) :
    Judged config.nesting (ofText config.comments source)
      (feedAll config.nesting {} (Token.all config.comments (Glyph.ofText source))) :=
  tracks_run (tracks_empty config.nesting) (Glyph.ofText source)

end MiniLisp.Layout
