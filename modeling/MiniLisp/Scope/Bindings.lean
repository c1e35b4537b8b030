/-! Bindings of names, each name at most once and in increasing order of name, which is the order of
code points. -/

namespace MiniLisp

theorem lt_of_not_lt_of_ne {m n : String} (h : ¬ m < n) (hne : m ≠ n) : n < m := by
  by_cases h' : n < m
  · exact h'
  · exact absurd (String.le_antisymm (String.not_lt.1 h') (String.not_lt.1 h)) hne

/-- Entries in strictly increasing order of name. -/
def Increasing {α : Type} (entries : List (String × α)) : Prop := entries.Pairwise (·.1 < ·.1)

structure Bindings (α : Type) where
  entries : List (String × α)
  increasing : Increasing entries

namespace Bindings

variable {α : Type}

def empty : Bindings α := ⟨[], .nil⟩

instance : EmptyCollection (Bindings α) := ⟨empty⟩
instance : Inhabited (Bindings α) := ⟨empty⟩

/-- Binds a name in ordered entries, in place of its earlier binding. -/
def place (name : String) (a : α) : List (String × α) → List (String × α)
  | [] => [(name, a)]
  | e :: es =>
    if name = e.1 then (name, a) :: es
    else if name < e.1 then (name, a) :: e :: es
    else e :: place name a es

theorem mem_place {name : String} {a : α} {es : List (String × α)} {e : String × α}
    (h : e ∈ place name a es) : e = (name, a) ∨ e ∈ es := by
  induction es with
  | nil => simpa [place] using h
  | cons d ds ih =>
    unfold place at h
    split at h
    · simp only [List.mem_cons] at h ⊢; rcases h with h | h <;> simp [h]
    · split at h
      · simpa using h
      · simp only [List.mem_cons] at h ⊢
        rcases h with h | h
        · simp [h]
        · rcases ih h with h | h <;> simp [h]

theorem increasing_place {name : String} {a : α} {es : List (String × α)} (h : Increasing es) :
    Increasing (place name a es) := by
  induction es with
  | nil => simp [place, Increasing]
  | cons d ds ih =>
    obtain ⟨hd, hds⟩ := List.pairwise_cons.1 h
    unfold place
    split
    · rename_i heq
      exact List.pairwise_cons.2 ⟨fun e he => heq ▸ hd e he, hds⟩
    · rename_i hne
      split
      · rename_i hlt
        refine List.pairwise_cons.2 ⟨fun e he => ?_, h⟩
        rcases List.mem_cons.1 he with rfl | he
        · exact hlt
        · exact String.lt_trans hlt (hd e he)
      · rename_i hge
        refine List.pairwise_cons.2 ⟨fun e he => ?_, ih hds⟩
        rcases mem_place he with rfl | he
        · exact lt_of_not_lt_of_ne hge hne
        · exact hd e he

def insert (b : Bindings α) (name : String) (a : α) : Bindings α :=
  ⟨place name a b.entries, increasing_place b.increasing⟩

def erase (b : Bindings α) (name : String) : Bindings α :=
  ⟨b.entries.filter (·.1 != name), b.increasing.filter _⟩

def get? (b : Bindings α) (name : String) : Option α := b.entries.lookup name

/-- Two lists of ordered entries as one, where those of the second win. -/
def merge : List (String × α) → List (String × α) → List (String × α)
  | [], es => es
  | d :: ds, [] => d :: ds
  | d :: ds, e :: es =>
    if d.1 < e.1 then d :: merge ds (e :: es)
    else if d.1 = e.1 then e :: merge ds es
    else e :: merge (d :: ds) es
termination_by ds es => ds.length + es.length

theorem mem_merge {ds es : List (String × α)} {x : String × α} (h : x ∈ merge ds es) :
    x ∈ ds ∨ x ∈ es := by
  fun_induction merge ds es with grind

theorem increasing_merge {ds es : List (String × α)} (hd : Increasing ds) (he : Increasing es) :
    Increasing (merge ds es) := by
  fun_induction merge ds es with
  | case1 => exact he
  | case2 => exact hd
  | case3 d ds e es hlt ih =>
    obtain ⟨hd', hds⟩ := List.pairwise_cons.1 hd
    obtain ⟨he', _⟩ := List.pairwise_cons.1 he
    refine List.pairwise_cons.2 ⟨fun x hx => ?_, ih hds he⟩
    rcases mem_merge hx with hx | hx
    · exact hd' x hx
    · rcases List.mem_cons.1 hx with rfl | hx
      · exact hlt
      · exact String.lt_trans hlt (he' x hx)
  | case4 d ds e es _ heq ih =>
    obtain ⟨hd', hds⟩ := List.pairwise_cons.1 hd
    obtain ⟨he', hes⟩ := List.pairwise_cons.1 he
    refine List.pairwise_cons.2 ⟨fun x hx => ?_, ih hds hes⟩
    rcases mem_merge hx with hx | hx
    · exact heq ▸ hd' x hx
    · exact he' x hx
  | case5 d ds e es hge hne ih =>
    obtain ⟨hd', _⟩ := List.pairwise_cons.1 hd
    obtain ⟨he', hes⟩ := List.pairwise_cons.1 he
    have hlt := lt_of_not_lt_of_ne hge hne
    refine List.pairwise_cons.2 ⟨fun x hx => ?_, ih hd hes⟩
    rcases mem_merge hx with hx | hx
    · rcases List.mem_cons.1 hx with rfl | hx
      · exact hlt
      · exact String.lt_trans hlt (hd' x hx)
    · exact he' x hx

def override (b c : Bindings α) : Bindings α :=
  ⟨merge b.entries c.entries, increasing_merge b.increasing c.increasing⟩

/-- The bindings of a list of pairs, where the later pair wins. -/
def ofList (pairs : List (String × α)) : Bindings α := pairs.foldl (fun b e => b.insert e.1 e.2) ∅

def toList (b : Bindings α) : List (String × α) := b.entries

def names (b : Bindings α) : List String := b.entries.map (·.1)

theorem lookup_cons (e : String × α) (es : List (String × α)) (n : String) :
    (e :: es).lookup n = if n = e.1 then some e.2 else es.lookup n := by
  obtain ⟨k, a⟩ := e
  by_cases h : n = k
  · rw [if_pos h, h, List.lookup_cons_self]
  · rw [if_neg h, List.lookup_cons, beq_eq_false_iff_ne.2 h]

theorem lookup_place (name : String) (a : α) (es : List (String × α)) (n : String) :
    (place name a es).lookup n = if n = name then some a else es.lookup n := by
  induction es with
  | nil => rw [place, lookup_cons]
  | cons d ds ih =>
    unfold place
    split
    · grind [lookup_cons]
    · split
      · rw [lookup_cons]
      · grind [lookup_cons]

theorem lookup_eq_none_of_lt {name : String} {es : List (String × α)} (h : ∀ e ∈ es, name < e.1) :
    es.lookup name = none := by
  induction es with
  | nil => rfl
  | cons e es ih =>
    have hne : name ≠ e.1 := fun heq => String.lt_irrefl _ (heq ▸ h e List.mem_cons_self)
    rw [lookup_cons, if_neg hne, ih fun x hx => h x (List.mem_cons_of_mem e hx)]

theorem lookup_merge {ds es : List (String × α)} (hd : Increasing ds) (he : Increasing es)
    (n : String) : (merge ds es).lookup n = (es.lookup n).or (ds.lookup n) := by
  fun_induction merge ds es with
  | case1 => simp
  | case2 => simp
  | case3 d ds e es hlt ih =>
    have hnone : (e :: es).lookup d.1 = none := lookup_eq_none_of_lt fun x hx => by
      rcases List.mem_cons.1 hx with rfl | hx
      · exact hlt
      · exact String.lt_trans hlt (List.rel_of_pairwise_cons he hx)
    rw [lookup_cons d, ih (List.Pairwise.of_cons hd) he, lookup_cons d]
    by_cases hn : n = d.1
    · rw [if_pos hn, if_pos hn, hn, hnone, Option.none_or]
    · rw [if_neg hn, if_neg hn]
  | case4 d ds e es _ heq ih =>
    rw [lookup_cons, ih (List.Pairwise.of_cons hd) (List.Pairwise.of_cons he), lookup_cons,
      lookup_cons]
    grind
  | case5 d ds e es _ _ ih =>
    rw [lookup_cons, ih hd (List.Pairwise.of_cons he), lookup_cons e]
    grind

theorem lookup_filter_ne (name : String) (es : List (String × α)) (n : String) :
    (es.filter (·.1 != name)).lookup n = if n = name then none else es.lookup n := by
  induction es with
  | nil => simp
  | cons d ds ih =>
    by_cases h : d.1 = name
    · rw [List.filter_cons_of_neg (by simp [h]), ih, lookup_cons]; grind
    · rw [List.filter_cons_of_pos (by simp [h]), lookup_cons, ih, lookup_cons]; grind

@[simp] theorem get?_empty (n : String) : (∅ : Bindings α).get? n = none := rfl

theorem get?_insert (b : Bindings α) (name : String) (a : α) (n : String) :
    (b.insert name a).get? n = if n = name then some a else b.get? n :=
  lookup_place name a b.entries n

theorem get?_erase (b : Bindings α) (name n : String) :
    (b.erase name).get? n = if n = name then none else b.get? n :=
  lookup_filter_ne name b.entries n

theorem get?_override (b c : Bindings α) (n : String) :
    (b.override c).get? n = (c.get? n).or (b.get? n) :=
  lookup_merge b.increasing c.increasing n

end Bindings
end MiniLisp
