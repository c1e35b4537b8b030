import MiniLisp.Proofs.Concatenation
import MiniLisp.Shell.Repl

/-! A program typed into the shell. The shell cuts a text where the lines that it holds back first make
sense, and runs what it has; no form is lost, split or moved that way. A line does one of four things
(`accepted`); each keeps what is still to be read, which is the text held back and the lines to come. So
the sources that are run have, together, the forms that the text has as a whole
(`requests_of_pending`). The interpreter does nothing in a session but run these sources, in order
(`ran_foldl_perform`). -/

namespace MiniLisp

namespace Shell

open Grammar

/-- The line is a command, if it comes while nothing is held back. -/
def IsCommand (line : String) : Prop :=
  Text.trim line ∈ [":help", ":env", ":quit", ":exit"] ∨ ":ast".toList <+: (Text.trim line).toList

instance : DecidablePred IsCommand := fun _ => inferInstanceAs (Decidable (_ ∨ _))

/-- The lines that come while nothing is held back. -/
def idleLines (held : String) : List String → List String
  | [] => []
  | line :: lines =>
    if held = "" then line :: idleLines (accept held line).2 lines
    else idleLines (accept held line).2 lines

theorem isCommand_of_command? {line : String} {r : Request} (h : command? (Text.trim line) = some r) :
    IsCommand line ∧ ∀ source, r ≠ .run source := by
  unfold command? at h
  rw [IsCommand]
  split_ifs at h with hhelp henv hquit hast
  · cases h
    exact ⟨Or.inl (by simp [beq_iff_eq.1 hhelp]), by simp⟩
  · cases h
    exact ⟨Or.inl (by simp [beq_iff_eq.1 henv]), by simp⟩
  · cases h
    refine ⟨Or.inl ?_, by simp⟩
    rcases Bool.or_eq_true _ _ ▸ hquit with hquit | hexit
    · simp [beq_iff_eq.1 hquit]
    · simp [beq_iff_eq.1 hexit]
  · cases h
    exact ⟨Or.inr (List.isPrefixOf_iff_prefix.1 hast), by simp⟩

theorem isBlank_of_trim {s : String} (h : (Text.trim s).isEmpty) : ∀ c ∈ s.toList, isBlank c := by
  have hright : ∀ c ∈ Text.trimLeft s.toList, isBlank c := by
    simpa [Text.trim, Text.trimLeft, String.isEmpty_iff] using h
  intro c hc
  rw [← List.takeWhile_append_dropWhile (p := isBlank) (l := s.toList), List.mem_append] at hc
  rcases hc with hc | hc
  · exact List.mem_takeWhile_imp hc
  · exact hright c hc

/-- What a line does: nothing, if it is blank; it is held back; it is run, with all that was held back;
or it is a command. -/
inductive Accepted (held line : String) : Request × String → Prop
  | blank : held = "" → (∀ c ∈ line.toList, isBlank c) → Accepted held line (.nothing, "")
  | hold {e : ReadError} : readForms config (held ++ line ++ "\n") = .error e → e.isIncomplete →
    Accepted held line (.nothing, held ++ line ++ "\n")
  | run : (∀ e, readForms config (held ++ line ++ "\n") = .error e → e.isIncomplete = false) →
    Accepted held line (.run (held ++ line ++ "\n"), "")
  | command {r : Request} : held = "" → IsCommand line → (∀ source, r ≠ .run source) →
    Accepted held line (r, "")

theorem accepted_hold (held line : String) : Accepted held line (hold held line) := by
  unfold Shell.hold
  dsimp only
  split
  · rename_i e he
    split_ifs with hincomplete
    · exact .hold he hincomplete
    · refine .run fun e' he' => ?_
      rw [he] at he'
      cases he'
      simpa using hincomplete
  · rename_i vs hvs
    exact .run fun e he => by simp [hvs] at he

theorem accepted (held line : String) : Accepted held line (accept held line) := by
  unfold accept
  dsimp only
  split_ifs with hheld hblank
  · exact .blank (String.isEmpty_iff.1 hheld) (isBlank_of_trim hblank)
  · split
    · rename_i r hr
      obtain ⟨hcommand, hrun⟩ := isCommand_of_command? hr
      exact .command (String.isEmpty_iff.1 hheld) hcommand hrun
    · exact accepted_hold held line
  · exact accepted_hold held line

theorem accept_idle {line : String} (hblank : (Text.trim line).isEmpty = false)
    (h : command? (Text.trim line) = none) : accept "" line = hold "" line := by
  simp [accept, hblank, h]

theorem accept_held {held : String} (h : held ≠ "") (line : String) :
    accept held line = hold held line := by
  simp [accept, h]

theorem mem_sources_cons {source : String} {r : Request} {rs : List Request} :
    source ∈ sources (r :: rs) ↔ r = .run source ∨ source ∈ sources rs := by
  cases r <;> simp [sources, eq_comm]

theorem mem_idleLines {held held' line l : String} {lines : List String} {r : Request}
    (h : accept held line = (r, held')) (hl : l ∈ idleLines held' lines) :
    l ∈ idleLines held (line :: lines) := by
  rw [idleLines, h]
  split_ifs
  · exact List.mem_cons_of_mem line hl
  · exact hl

section

variable {held held' : String} {event : Event} {r : Request} (h : respond held event = (r, held'))
include h

theorem requests_cons (hr : r.ends = false) (events : List Event) :
    requests held (event :: events) = (r :: (requests held' events).1, (requests held' events).2) := by
  rw [requests, h]
  simp only [hr]
  rfl

theorem requests_of_ends (hr : r.ends = true) (events : List Event) :
    requests held (event :: events) = ([r], held') := by
  rw [requests, h]
  simp only [hr]
  rfl

theorem not_isIncomplete_of_respond {source : String} {e : ReadError} (hr : r = .run source)
    (he : readForms config source = .error e) : e.isIncomplete = false := by
  subst hr
  cases event with
  | line line =>
    have haccepted := accepted held line
    rw [show accept held line = _ from h] at haccepted
    cases haccepted with
    | run hcomplete => exact hcomplete e he
    | command _ _ hrun => exact absurd rfl (hrun source)
  | interrupt =>
    unfold respond at h
    split_ifs at h <;> cases h
  | failure reason => cases h

end

theorem requests_line {held held' line : String} {r : Request} (h : accept held line = (r, held'))
    (hr : r.ends = false) (lines : List String) :
    let later := requests held' (lines.map .line)
    requests held ((line :: lines).map .line) = (r :: later.1, later.2) := by
  have hrespond : respond held (.line line) = (r, held') := h
  exact requests_cons hrespond hr _

theorem not_isIncomplete_of_mem_sources {held source : String} {events : List Event} {e : ReadError}
    (h : source ∈ sources (requests held events).1) (he : readForms config source = .error e) :
    e.isIncomplete = false := by
  induction events generalizing held with
  | nil => simp [requests, sources] at h
  | cons event events ih =>
    obtain ⟨⟨r, held'⟩, hr⟩ : ∃ out, respond held event = out := ⟨_, rfl⟩
    cases hends : r.ends with
    | true =>
      rw [requests_of_ends hr hends, mem_sources_cons] at h
      exact not_isIncomplete_of_respond hr (h.resolve_right List.not_mem_nil) he
    | false =>
      rw [requests_cons hr hends, mem_sources_cons] at h
      exact h.elim (not_isIncomplete_of_respond hr · he) ih

/-! What the interpreter does. -/

/-- `Ran m srcs m'`: to run the sources one after the other takes `m` to `m'`, where something may be shown
at any time. -/
inductive Ran : Machine → List String → Machine → Prop
  | done (m : Machine) : Ran m [] m
  | shown {m m' : Machine} {srcs : List String} (s : String) : Ran (say m s) srcs m' → Ran m srcs m'
  | run {m m' : Machine} {source : String} {srcs : List String} :
    Ran (m.run source).2 srcs m' → Ran m (source :: srcs) m'

theorem ran_foldl_perform (rs : List Request) (m : Machine) : Ran m (sources rs) (rs.foldl perform m) := by
  induction rs generalizing m with
  | nil => exact .done m
  | cons r rs ih =>
    rw [List.foldl_cons]
    cases r with
    | nothing => exact ih m
    | run source => exact .run (.shown (reply (m.run source).1) (ih _))
    | help | bindings | tree | quit | abort => exact .shown _ (ih _)

/-- The machine after the sources are run in order and what came of each is shown before the next. -/
def runAll (m : Machine) (srcs : List String) : Machine :=
  srcs.foldl (fun m source => say (m.run source).2 (reply (m.run source).1)) m

/-! Lines of a text. -/

def unlines : List String → String
  | [] => ""
  | line :: lines => line ++ "\n" ++ unlines lines

theorem splitLines_newline {current : List Char} (h : '\r' ∉ current) (cs : List Char) :
    splitLines current ('\n' :: cs) = String.ofList current.reverse :: splitLines [] cs := by
  have hhead : current.head? ≠ some '\r' := fun hr => h (List.mem_of_mem_head? hr)
  simp [splitLines, hhead]

theorem splitLines_of_ne {c : Char} (h : c ≠ '\n') (current cs : List Char) :
    splitLines current (c :: cs) = splitLines (c :: current) cs := by
  simp [splitLines, h]

theorem unlines_splitLines {current cs : List Char} (hcurrent : '\r' ∉ current) (hcs : '\r' ∉ cs) :
    (unlines (splitLines current cs)).toList = current.reverse ++ cs ∨
      (unlines (splitLines current cs)).toList = current.reverse ++ cs ++ ['\n'] := by
  induction cs generalizing current with
  | nil =>
    rw [splitLines]
    split_ifs with hempty
    · left
      simp [unlines, List.isEmpty_iff.1 hempty]
    · right
      simp [unlines]
  | cons c cs ih =>
    rw [List.mem_cons, not_or] at hcs
    by_cases hc : c = '\n'
    · subst hc
      rw [splitLines_newline hcurrent]
      rcases ih List.not_mem_nil hcs.2 with h | h <;> simp [unlines, h]
    · have hnext : '\r' ∉ c :: current := by simp [hcs.1, hcurrent]
      rw [splitLines_of_ne hc]
      rcases ih hnext hcs.2 with h | h <;> simp [h]

/-! Runs. -/

/-- The sources, one after the other, are read as these forms, up to positions. -/
def ReadAs (srcs : List String) (vs : List Value) : Prop :=
  ∃ parts, List.Forall₂ (fun source part => readForms config source = .ok part) srcs parts ∧
    parts.flatten.map Value.bare = vs.map Value.bare

theorem ReadAs.move {srcs : List String} {vs : List Value} (h : ReadAs srcs vs)
    (f : Position → Position) : ReadAs srcs (vs.map (Value.move f)) := by
  obtain ⟨parts, hparts, hflat⟩ := h
  exact ⟨parts, hparts, by rw [hflat, Value.map_bare_move]⟩

theorem ReadAs.cons {source : String} {srcs : List String} {us vs : List Value}
    (hsource : readForms config source = .ok us) (h : ReadAs srcs vs) :
    ReadAs (source :: srcs) (us ++ vs) := by
  obtain ⟨parts, hparts, hflat⟩ := h
  refine ⟨us :: parts, .cons hsource hparts, ?_⟩
  rw [List.flatten_cons, List.map_append, hflat, List.map_append]

theorem cut_of_not_mem {a : String} (h : '\r' ∉ a.toList) :
    config.comments = false ∨ a.toList.getLast? ≠ some '\r' :=
  Or.inr fun hlast => h (List.mem_of_getLast? hlast)

theorem readForms_of_append_newline {a b : String} {us vs : List Value} (hreturn : '\r' ∉ a.toList)
    (ha : readForms config a = .ok us) (h : readForms config (a ++ "\n" ++ b) = .ok vs) :
    ∃ (ws : List Value) (f : Position → Position),
      readForms config b = .ok ws ∧ vs = us ++ ws.map (Value.move f) := by
  rw [readForms_append_newline (cut_of_not_mem hreturn) ha] at h
  cases hb : readForms config b with
  | error e => simp [hb, Except.map, Except.mapError] at h
  | ok ws =>
    rw [hb] at h
    exact ⟨ws, _, rfl, (Except.ok.inj h).symm⟩

theorem readForms_of_blank {s : String} (h : ∀ c ∈ s.toList, isBlank c) :
    readForms config s = .ok [] := by
  have hblanks : ∀ g ∈ Glyph.ofText s, isBlank g.char := fun g hg => h _ (char_mem_of_mem_place hg)
  have hall : Token.all config.comments (Glyph.ofText s ++ []) = _ := all_blanks hblanks []
  rw [readForms, ← List.append_nil (Glyph.ofText s), hall, Token.all]
  rfl

/-- What is still to be read, and what holds of it: the text held back is empty or the start of some
form, and together with the lines to come it is read as `vs`. -/
structure Pending (held : String) (lines : List String) (vs : List Value) : Prop where
  started : held = "" ∨ ∃ e, readForms config held = .error e ∧ e.isIncomplete
  plain : '\r' ∉ (held ++ unlines lines).toList
  reads : readForms config (held ++ unlines lines) = .ok vs
  idle : ∀ line ∈ idleLines held lines, ¬ IsCommand line

theorem Pending.nil {held : String} {vs : List Value} (h : Pending held [] vs) : held = "" ∧ vs = [] := by
  have hreads := h.reads
  rw [unlines, String.append_empty] at hreads
  rcases h.started with rfl | ⟨e, he, -⟩
  · have hnil : readForms config "" = .ok [] := readForms_of_blank (by simp)
    rw [hnil] at hreads
    exact ⟨rfl, (Except.ok.inj hreads).symm⟩
  · simp [he] at hreads

section

variable {held line : String} {lines : List String} {vs : List Value}
  (h : Pending held (line :: lines) vs)
include h

theorem Pending.hold {e : ReadError} (haccept : accept held line = (.nothing, held ++ line ++ "\n"))
    (he : readForms config (held ++ line ++ "\n") = .error e) (hincomplete : e.isIncomplete) :
    Pending (held ++ line ++ "\n") lines vs where
  started := Or.inr ⟨e, he, hincomplete⟩
  plain := by simpa [unlines, String.append_assoc] using h.plain
  reads := by simpa [unlines, String.append_assoc] using h.reads
  idle l hl := h.idle l (mem_idleLines haccept hl)

theorem Pending.not_mem_line : '\r' ∉ (held ++ line).toList := by
  have hplain := h.plain
  simp only [unlines, String.toList_append, List.mem_append, not_or] at hplain ⊢
  exact ⟨hplain.1, hplain.2.1.1⟩

theorem Pending.restart {r : Request} {us : List Value} (haccept : accept held line = (r, ""))
    (hus : readForms config (held ++ line) = .ok us) :
    ∃ (ws : List Value) (f : Position → Position),
      Pending "" lines ws ∧ vs = us ++ ws.map (Value.move f) := by
  have hplain := h.plain
  simp only [unlines, String.toList_append, List.mem_append, not_or] at hplain
  have hreads : readForms config (held ++ line ++ "\n" ++ unlines lines) = .ok vs := by
    simpa [unlines, String.append_assoc] using h.reads
  obtain ⟨ws, f, hws, rfl⟩ := readForms_of_append_newline h.not_mem_line hus hreads
  refine ⟨ws, f, ⟨Or.inl rfl, by simp [hplain], by simpa using hws, ?_⟩, rfl⟩
  exact fun l hl => h.idle l (mem_idleLines haccept hl)

theorem Pending.readForms_run
    (hcomplete : ∀ e, readForms config (held ++ line ++ "\n") = .error e → e.isIncomplete = false) :
    ∃ us, readForms config (held ++ line ++ "\n") = .ok us := by
  cases hread : readForms config (held ++ line ++ "\n") with
  | ok us => exact ⟨us, rfl⟩
  | error e =>
    have hkind : e.fault.kind ≠ .incomplete := by
      simpa [ReadError.isIncomplete] using hcomplete e hread
    have hcut : (held ++ line ++ "\n").toList.getLast? ≠ some '\r' := by simp
    have herror := readForms_append_of_error hread hkind (Or.inr hcut) (unlines lines)
    have hreads := h.reads
    rw [unlines, ← String.append_assoc, ← String.append_assoc, herror] at hreads
    simp at hreads

end

theorem requests_of_pending {held : String} {lines : List String} {vs : List Value}
    (h : Pending held lines vs) :
    let out := requests held (lines.map .line)
    out.2 = "" ∧ ReadAs (sources out.1) vs ∧
      ∀ m, out.1.foldl perform m = say (runAll m (sources out.1)) farewell := by
  induction lines generalizing held vs with
  | nil =>
    obtain ⟨rfl, rfl⟩ := h.nil
    exact ⟨rfl, ⟨[], .nil, rfl⟩, fun _ => rfl⟩
  | cons line lines ih =>
    have haccepted := accepted held line
    generalize haccept : accept held line = out at haccepted
    cases haccepted with
    | blank hheld hblank =>
      have hnil : readForms config (held ++ line) = .ok [] := by
        rw [hheld, String.empty_append]
        exact readForms_of_blank hblank
      obtain ⟨ws, f, hws, rfl⟩ := h.restart haccept hnil
      obtain ⟨hend, hread, hrun⟩ := ih hws
      rw [requests_line haccept rfl]
      exact ⟨hend, hread.move f, hrun⟩
    | hold he hincomplete =>
      rw [requests_line haccept rfl]
      exact ih (h.hold haccept he hincomplete)
    | run hcomplete =>
      obtain ⟨us, hus⟩ := h.readForms_run hcomplete
      have hline : readForms config (held ++ line) = .ok us :=
        (readForms_newline_iff (cut_of_not_mem h.not_mem_line)).1 hus
      obtain ⟨ws, f, hws, rfl⟩ := h.restart haccept hline
      obtain ⟨hend, hread, hrun⟩ := ih hws
      rw [requests_line haccept rfl]
      exact ⟨hend, (hread.move f).cons hus, fun m => hrun _⟩
    | command hheld hcommand =>
      exact absurd hcommand (h.idle line (by simp [idleLines, hheld]))

theorem pending_of_readForms {text : String} {vs : List Value} (hplain : '\r' ∉ text.toList)
    (hread : readForms config text = .ok vs)
    (hidle : ∀ line ∈ idleLines "" (splitLines [] text.toList), ¬ IsCommand line) :
    Pending "" (splitLines [] text.toList) vs := by
  have hlines : unlines (splitLines [] text.toList) = text ∨
      unlines (splitLines [] text.toList) = text ++ "\n" := by
    rcases unlines_splitLines List.not_mem_nil hplain with h | h
    · exact Or.inl (String.toList_injective (by simpa using h))
    · exact Or.inr (String.toList_injective (by simpa using h))
  refine ⟨Or.inl rfl, ?_, ?_, hidle⟩
  · rcases hlines with h | h <;> simp [h, hplain]
  · rw [String.empty_append]
    rcases hlines with h | h <;> rw [h]
    · exact hread
    · exact (readForms_newline_iff (cut_of_not_mem hplain)).2 hread

/-- A program is the same typed in as read from a file. If no line of it is a command, the shell runs
sources that are each read, and together have the forms of the text; the session is their run, in order.
Whatever comes from the terminal, a session runs no source that lacks the rest of a form. -/
theorem typed_program_read :
    (∀ (text : String) (vs : List Value), '\r' ∉ text.toList → readForms config text = .ok vs →
      (∀ line ∈ idleLines "" (splitLines [] text.toList), ¬ IsCommand line) →
      let out := requests "" (typed text)
      out.2 = "" ∧ ReadAs (sources out.1) vs ∧
        ∀ m, out.1.foldl perform m = say (runAll m (sources out.1)) farewell) ∧
    ∀ (held : String) (events : List Event),
      let rs := (requests held events).1
      (∀ m, Ran m (sources rs) (rs.foldl perform m)) ∧
        ∀ source ∈ sources rs, ∀ e, readForms config source = .error e → e.isIncomplete = false :=
  ⟨fun _ _ hplain hread hidle => requests_of_pending (pending_of_readForms hplain hread hidle),
    fun _ _ => ⟨ran_foldl_perform _, fun _ hsource _ he => not_isIncomplete_of_mem_sources hsource he⟩⟩

/-- A string in a list goes over three lines, one of which would be a command elsewhere. -/
theorem typed_program_read_lines :
    ∃ vs rs, readForms config "(a \"b\n:quit\n\") c\nd" = .ok vs ∧
      requests "" (typed "(a \"b\n:quit\n\") c\nd") = (rs, "") ∧
      ReadAs ["(a \"b\n:quit\n\") c\n", "d\n"] vs ∧
      ∀ m, rs.foldl perform m = say (runAll m ["(a \"b\n:quit\n\") c\n", "d\n"]) farewell := by
  have hlines : splitLines [] "(a \"b\n:quit\n\") c\nd".toList = ["(a \"b", ":quit", "\") c", "d"] := by
    decide
  have hopen : accept "" "(a \"b" = (.nothing, "(a \"b\n") := by
    rw [accept_idle (by decide) (by decide)]
    decide +kernel
  have hquit : accept "(a \"b\n" ":quit" = (.nothing, "(a \"b\n:quit\n") := by
    rw [accept_held (by decide)]
    decide +kernel
  have hclose : accept "(a \"b\n:quit\n" "\") c" = (.run "(a \"b\n:quit\n\") c\n", "") := by
    rw [accept_held (by decide)]
    decide +kernel
  have hnext : accept "" "d" = (.run "d\n", "") := by
    rw [accept_idle (by decide) (by decide)]
    decide +kernel
  have hidle : idleLines "" ["(a \"b", ":quit", "\") c", "d"] = ["(a \"b", "d"] := by
    simp [idleLines, hopen, hquit, hclose]
  have hrequests : requests "" (typed "(a \"b\n:quit\n\") c\nd") =
      ([.nothing, .nothing, .run "(a \"b\n:quit\n\") c\n", .run "d\n", .quit], "") := by
    rw [typed, hlines]
    simp [requests, respond, Request.ends, hopen, hquit, hclose, hnext]
  have hread : ∃ vs, readForms config "(a \"b\n:quit\n\") c\nd" = .ok vs := by
    refine ⟨[.list [.symbol "a", .string "b\n:quit\n"] false (some ⟨1, 1⟩), .symbol "c",
      .symbol "d"], ?_⟩
    decide +kernel
  obtain ⟨vs, hvs⟩ := hread
  have h := typed_program_read.1 _ vs (by decide) hvs
  rw [hlines, hidle, hrequests] at h
  refine ⟨vs, _, hvs, hrequests, (h ?_).2⟩
  intro line hline
  simp only [List.mem_cons, List.not_mem_nil, or_false] at hline
  rcases hline with rfl | rfl <;> decide

end Shell
end MiniLisp
