/-!
# Regular expressions that find their first match

A pattern matches a text in an order of preference: the left alternative before the
right one, and a repetition as far as it goes before any shorter one. `runs` lists
the matches in that order. `search` takes the most preferred match at the earliest
position. The rules below follow one match, `Leads`, through a pattern; where the most
preferred choice of each part goes on to a match, no other choice is tried.
-/

namespace MiniDB.Foundation

universe u

/-- Regular expressions over an alphabet. -/
inductive Pattern (α : Type u) where
  | empty
  | one (accepts : α → Bool)
  /-- `*` of one symbol. -/
  | many (accepts : α → Bool)
  | seq (first second : Pattern α)
  | alt (first second : Pattern α)
  /-- `?`. -/
  | optional (pattern : Pattern α)
  /-- A group that is captured. -/
  | group (pattern : Pattern α)

namespace Pattern

variable {α : Type u}

/-- `+` of one symbol. -/
def some (accepts : α → Bool) : Pattern α := seq (one accepts) (many accepts)

/-- One symbol after another, up to `same`. -/
def word (same : α → α → Bool) (symbols : List α) : Pattern α :=
  symbols.foldr (fun symbol rest => seq (one (same symbol)) rest) empty

/-- Where a repetition can end, the longest one first. -/
def manyRests (accepts : α → Bool) : List α → List (List α)
  | [] => [[]]
  | symbol :: text =>
    if accepts symbol then manyRests accepts text ++ [symbol :: text] else [symbol :: text]

/-- The matches at the start of a text, in the order of preference: the groups that
are captured, and the text after the match. -/
def runs : Pattern α → List α → List (List (List α) × List α)
  | empty, text => [([], text)]
  | one _, [] => []
  | one accepts, symbol :: text => if accepts symbol then [([], text)] else []
  | many accepts, text => (manyRests accepts text).map fun rest => ([], rest)
  | seq first second, text =>
    (first.runs text).flatMap fun (groups, rest) =>
      (second.runs rest).map fun (later, rest) => (groups ++ later, rest)
  | alt first second, text => first.runs text ++ second.runs text
  | optional pattern, text => pattern.runs text ++ [([], text)]
  | group pattern, text =>
    (pattern.runs text).map fun (groups, rest) =>
      (text.take (text.length - rest.length) :: groups, rest)

/-- The groups of the most preferred match at the earliest position. -/
def search (pattern : Pattern α) : List α → Option (List (List α))
  | [] => (pattern.runs []).head?.map Prod.fst
  | symbol :: text =>
    match (pattern.runs (symbol :: text)).head? with
    | Option.some (groups, _) => Option.some groups
    | none => pattern.search text

/-- The most preferred match at the start of the text. -/
def Leads (pattern : Pattern α) (text : List α) (groups : List (List α)) (rest : List α) : Prop :=
  (pattern.runs text).head? = Option.some (groups, rest)

variable {first second pattern : Pattern α} {accepts : α → Bool} {text middle rest : List α}
  {groups later : List (List α)}

theorem leads_empty (text : List α) : empty.Leads text [] text := rfl

theorem leads_one {symbol : α} (accepted : accepts symbol = true) (text : List α) :
    (one accepts).Leads (symbol :: text) [] text := by
  simp [Leads, runs, accepted]

/-- A repetition takes all symbols that it accepts. -/
theorem leads_many {taken : List α} (accepted : ∀ symbol ∈ taken, accepts symbol = true)
    (stops : ∀ symbol ∈ rest.head?, accepts symbol = false) :
    (many accepts).Leads (taken ++ rest) [] rest := by
  have longest : (manyRests accepts (taken ++ rest)).head? = Option.some rest := by
    induction taken with
    | nil =>
      cases rest with
      | nil => rfl
      | cons symbol rest => simp [manyRests, stops symbol rfl]
    | cons symbol taken ih =>
      have here := accepted symbol List.mem_cons_self
      have further := ih fun later member => accepted later (List.mem_cons_of_mem _ member)
      simp only [List.cons_append, manyRests, here, if_true, List.head?_append, further,
        Option.some_or]
  simp only [Leads, runs, List.head?_map, longest, Option.map_some]

/-- A sequence whose first part leads to a match of the second one. -/
theorem Leads.seq (before : first.Leads text groups middle)
    (after : second.Leads middle later rest) :
    (seq first second).Leads text (groups ++ later) rest := by
  unfold Leads at before after ⊢
  obtain ⟨others, isRuns⟩ : ∃ others, first.runs text = (groups, middle) :: others := by
    cases isRuns : first.runs text with
    | nil => simp [isRuns] at before
    | cons run others =>
      rw [isRuns, List.head?_cons] at before
      exact ⟨others, by rw [Option.some.inj before]⟩
  simp only [runs, isRuns, List.flatMap_cons, List.head?_append, List.head?_map, after,
    Option.map_some, Option.some_or]

theorem Leads.alt_left (matched : first.Leads text groups rest) :
    (alt first second).Leads text groups rest := by
  unfold Leads at matched ⊢
  simp only [runs, List.head?_append, matched, Option.some_or]

theorem Leads.optional (matched : pattern.Leads text groups rest) :
    (optional pattern).Leads text groups rest := by
  unfold Leads at matched ⊢
  simp only [runs, List.head?_append, matched, Option.some_or]

/-- A group captures what it matches. -/
theorem Leads.group {taken : List α} (matched : pattern.Leads (taken ++ rest) groups rest) :
    (group pattern).Leads (taken ++ rest) (taken :: groups) rest := by
  unfold Leads at matched ⊢
  simp only [runs, List.head?_map, matched, Option.map_some, List.length_append,
    Nat.add_sub_cancel, List.take_left]

theorem leads_some {symbol : α} {taken : List α}
    (accepted : ∀ other ∈ symbol :: taken, accepts other = true)
    (stops : ∀ symbol ∈ rest.head?, accepts symbol = false) :
    (some accepts).Leads (symbol :: taken ++ rest) [] rest := by
  have here := leads_one (accepted symbol List.mem_cons_self) (taken ++ rest)
  have further := leads_many (fun other member => accepted other (List.mem_cons_of_mem _ member)) stops
  exact here.seq further

/-- A word matches its own symbols. -/
theorem leads_word {same : α → α → Bool} (reflexive : ∀ symbol, same symbol symbol = true)
    (symbols rest : List α) : (word same symbols).Leads (symbols ++ rest) [] rest := by
  induction symbols with
  | nil => exact leads_empty rest
  | cons symbol symbols ih => exact (leads_one (reflexive symbol) _).seq ih

/-- The search passes over positions without a match. -/
theorem search_append {before : List α} (matched : pattern.Leads text groups rest)
    (first : ∀ index < before.length, pattern.runs ((before ++ text).drop index) = []) :
    pattern.search (before ++ text) = Option.some groups := by
  induction before with
  | nil =>
    cases text with
    | nil =>
      unfold Leads at matched
      simp [search, matched]
    | cons symbol text =>
      unfold Leads at matched
      simp [search, matched]
  | cons symbol before ih =>
    have here : pattern.runs (symbol :: (before ++ text)) = [] := first 0 (Nat.zero_lt_succ _)
    simp only [List.cons_append, search, here, List.head?_nil]
    refine ih fun index inside => ?_
    exact first (index + 1) (Nat.succ_lt_succ inside)

end Pattern

end MiniDB.Foundation
